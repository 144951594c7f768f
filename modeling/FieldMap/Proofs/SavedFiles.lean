import FieldMap.Proofs.FileMachines
import FieldMap.Proofs.TemporaryPlace

/-!
# What a save does to the files

A save makes the directories above its path, writes a temporary file beside the place and moves it
there.  Each of these may be refused, on any machine and after any of them.

* `Disk.Replaced` is what a save that succeeds has done: new directories on the way, the bytes where
  the temporary path leads, and the temporary name moved to the path.
* `FileMachine.Abandoned` is what a save that fails may have done, by where it has stopped.
* `ends_saveMapping` says that there is nothing else.

What the two come to is told from `Disk.Touched`, which is all that can have happened up to the move:
new directories on the way, and other bytes in the file that the temporary path leads to, which is
another file if there is a link at this path.
-/

namespace FieldMap

namespace Disk

/-- The bytes have been put at the path, after new directories may have been made on the way. -/
def Replaced (path : Path) (bytes : List UInt8) (before after : Disk) : Prop :=
  ∃ made written, MadeAbove path before made ∧ made.Writes (temporaryPath path) bytes written ∧
    written.Renames (temporaryPath path) path after

/-- Nothing has changed, but for directories that were missing on the way along the path, and for the
file that the temporary path leads to, under all its names. -/
structure Touched (path : Path) (before after : Disk) : Prop where
  workingDirectory : after.workingDirectory = before.workingDirectory
  kept : ∀ l, ¬ before.Names (temporaryPath path) l → KeptAt path before after l
  directories : ∀ l, before.at? l = some .directory → after.at? l = some .directory
  made : ∀ l, after.at? l = some .directory → before.at? l = some .directory ∨
    before.at? l = none ∧ before.OnTheWay path l
  links : ∀ l, after.link? l = before.link? l
  numbers : ∀ l number, before.number? l = some number → after.number? l = some number

/-- All entries are as they were before, but for directories that were missing on the way along the
path, for the temporary path's own entry, and for the file that the temporary path leads to.  All
names of this file stay names of it, and it may be new. -/
structure Spared (path : Path) (before after : Disk) : Prop where
  workingDirectory : after.workingDirectory = before.workingDirectory
  kept : ∀ l, ¬ before.Leads false (temporaryPath path) l →
    ¬ before.Names (temporaryPath path) l → KeptAt path before after l
  numbers : ∀ l, ¬ before.Leads false (temporaryPath path) l →
    ∀ number, before.number? l = some number → after.number? l = some number
  directories : ∀ l, before.at? l = some .directory → after.at? l = some .directory
  made : ∀ l, after.at? l = some .directory → before.at? l = some .directory ∨
    before.at? l = none ∧ before.OnTheWay path l

/-- What was written at the temporary location has been moved to the path's own.  Both may be names of
one file, and then nothing has happened. -/
structure Moved (path : Path) (before written after : Disk) (own temporary : Location) : Prop where
  touched : Touched path before written
  locate_own : written.locate false path = .ok own
  locate_temporary : written.locate false (temporaryPath path) = .ok temporary
  ne : own ≠ temporary
  endsInSlash : path.endsInSlash = false
  free : written.at? own ≠ some .directory
  named : written.number? temporary ≠ none
  workingDirectory : after.workingDirectory = before.workingDirectory
  at_own : after.at? own = written.at? temporary
  at_temporary : written.at? own = written.at? temporary ∧
    after.at? temporary = written.at? temporary ∨ after.at? temporary = none
  elsewhere : ∀ l, l ≠ own → l ≠ temporary → after.at? l = written.at? l

section
variable {path other : Path} {bytes part content : List UInt8} {follow : Bool}
  {before made written after : Disk} {l : Location}

theorem MadeAbove.touched (h : MadeAbove path before after) : Touched path before after where
  workingDirectory := h.workingDirectory
  kept l _ := h.kept l
  directories l := (h.kept l).directory
  made _ := h.made
  links l := (h.kept l).link?_eq
  numbers l _ hnumber := (h.kept l).number?_eq.trans hnumber

/-- Bytes that were written under the temporary path are where it leads. -/
theorem MadeAbove.touched_of_writes (h : MadeAbove path before made)
    (hwrite : made.Writes (temporaryPath path) part written) : Touched path before written := by
  obtain ⟨there, hlocate, -, hsame⟩ := hwrite.at?_of_not_sameFile
  constructor
  case workingDirectory => exact hwrite.workingDirectory_eq.trans h.workingDirectory
  case kept =>
    intro l hl
    rw [KeptAt, hsame l fun hfile => hl ⟨there, h.leads hlocate, h.sameFile_iff.mp hfile⟩]
    exact h.kept l
  case directories => exact fun l hl => hwrite.directory_iff.mpr ((h.kept l).directory hl)
  case made => exact fun l hl => h.made (hwrite.directory_iff.mp hl)
  case links => exact fun l => (hwrite.link?_eq l).trans (h.kept l).link?_eq
  case numbers =>
    exact fun l _ hnumber => hwrite.number?_of ((h.kept l).number?_eq.trans hnumber)

theorem Touched.leads (h : Touched path before after) (hlocate : after.locate follow other = .ok l) :
    before.Leads follow other l :=
  leads_of_locate hlocate h.workingDirectory (fun m hm => (h.made m hm).imp_right And.left) h.links

theorem Touched.spared (h : Touched path before after) : Spared path before after where
  workingDirectory := h.workingDirectory
  kept l _ := h.kept l
  numbers l _ := h.numbers l
  directories := h.directories
  made := h.made

/-- The temporary file may be removed besides. -/
theorem Touched.spared_of_removes (h : Touched path before written)
    (hremove : written.Removes (temporaryPath path) after) : Spared path before after := by
  obtain ⟨own, number, hlocate, hnumber, hworking, hafter⟩ := hremove.at?_eq
  have hown := h.leads hlocate
  have helse {l : Location} (hl : ¬ before.Leads false (temporaryPath path) l) :
      after.at? l = written.at? l := by
    rw [hafter, if_neg]
    rintro rfl
    exact hl hown
  constructor
  case workingDirectory => exact hworking.trans h.workingDirectory
  case kept =>
    intro l hl hnames
    rw [KeptAt, helse hl]
    exact h.kept l hnames
  case numbers =>
    intro l hl found hfound
    rw [number?_congr (helse hl)]
    exact h.numbers l found hfound
  case directories =>
    intro l hl
    rw [hafter, if_neg, h.directories l hl]
    rintro rfl
    rw [number?_of_directory (h.directories l hl)] at hnumber
    cases hnumber
  case made =>
    intro l hl
    rw [hafter] at hl
    split at hl
    · cases hl
    · exact h.made l hl

theorem Replaced.exists_moved (h : Replaced path bytes before after) :
    ∃ made written own temporary, MadeAbove path before made ∧
      made.Writes (temporaryPath path) bytes written ∧
      Moved path before written after own temporary := by
  obtain ⟨made, written, hmade, hwrite, hrename⟩ := h
  have htouched := hmade.touched_of_writes hwrite
  obtain ⟨temporary, own, number, htemporary, hown, hslash, hdots, hnumber, hfree, hworking,
    hmoved⟩ := hrename.at?_eq
  have hne := (htouched.leads hown).ne_temporary (htouched.leads htemporary) hdots
  have hafter : after.at? own = written.at? temporary ∧
      (written.at? own = written.at? temporary ∧ after.at? temporary = written.at? temporary ∨
        after.at? temporary = none) ∧
      ∀ l, l ≠ own → l ≠ temporary → after.at? l = written.at? l := by
    rcases hmoved with ⟨hsame, rfl⟩ | ⟨-, hafter⟩
    · exact ⟨hsame, .inl ⟨hsame, rfl⟩, fun l _ _ => rfl⟩
    · exact ⟨by rw [hafter, if_pos rfl], .inr (by rw [hafter, if_neg (Ne.symm hne), if_pos rfl]),
        fun l hl hother => by rw [hafter, if_neg hl, if_neg hother]⟩
  exact ⟨made, written, own, temporary, hmade, hwrite, htouched, hown, htemporary, hne, hslash,
    hfree, by simp [hnumber], hworking.trans htouched.workingDirectory, hafter.1, hafter.2.1,
    hafter.2.2⟩

section
variable {own temporary : Location}

theorem Moved.leads_own (h : Moved path before written after own temporary) :
    before.Leads false path own :=
  h.touched.leads h.locate_own

theorem Moved.leads_temporary (h : Moved path before written after own temporary) :
    before.Leads false (temporaryPath path) temporary :=
  h.touched.leads h.locate_temporary

theorem Moved.own_ne_nil (h : Moved path before written after own temporary) : own ≠ [] :=
  ne_nil_of_at?_ne h.free

theorem Moved.temporary_ne_directory (h : Moved path before written after own temporary) :
    written.at? temporary ≠ some .directory :=
  fun hdirectory => h.named (number?_of_directory hdirectory)

theorem Moved.temporary_ne_nil (h : Moved path before written after own temporary) :
    temporary ≠ [] :=
  ne_nil_of_at?_ne h.temporary_ne_directory

/-- No directory is moved or replaced. -/
theorem Moved.directory (h : Moved path before written after own temporary)
    (hl : written.at? l = some .directory) : after.at? l = some .directory := by
  rw [h.elsewhere, hl]
  · rintro rfl
    exact h.free hl
  · rintro rfl
    exact h.temporary_ne_directory hl

end

end

end Disk

namespace FileMachine

open Disk

section
variable {σ : Type} [FileSystem (StateM σ)] [Reporting (StateM σ)] [Terminal (StateM σ)]
  [FileMachine σ] {path above : Path} {held : Disk → Prop}

/-- Bytes were written under the temporary path, but not moved, and the machine has refused to remove
the temporary file. -/
def CleanUpRefused (path : Path) (before : Disk) (next : σ) : Prop :=
  ∃ made part failed refusal, MadeAbove path before made ∧
    made.Writes (temporaryPath path) part (disk failed) ∧
    (FileSystem.remove (temporaryPath path) : ExceptT OsError (StateM σ) Unit).run failed =
      (.error refusal, next)

/-- What a save that fails has done.  Whether bytes have been written or not, it has tried to remove
the temporary file, and this may be one that was there before. -/
inductive Abandoned (path : Path) (before : Disk) (next : σ) : Prop
  | unwritten (hmade : MadeAbove path before (disk next))
  | cleared {made : Disk} (hmade : MadeAbove path before made)
      (hremove : made.Removes (temporaryPath path) (disk next))
  | undone {made written : Disk} {part : List UInt8} (hmade : MadeAbove path before made)
      (hwrite : made.Writes (temporaryPath path) part written)
      (hremove : written.Removes (temporaryPath path) (disk next))
  | left (hrefused : CleanUpRefused path before next)

theorem Abandoned.spared {before : Disk} {next : σ} (h : Abandoned path before next) :
    Spared path before (disk next) := by
  cases h with
  | unwritten hmade => exact hmade.touched.spared
  | cleared hmade hremove => exact hmade.touched.spared_of_removes hremove
  | undone hmade hwrite hremove =>
      exact (hmade.touched_of_writes hwrite).spared_of_removes hremove
  | left hrefused =>
      obtain ⟨made, part, failed, refusal, hmade, hwrite, hremove⟩ := hrefused
      rw [remove_error (temporaryPath path) failed next refusal hremove]
      exact (hmade.touched_of_writes hwrite).spared

/-! ## Directories -/

theorem ends_makeDirectory (hmake : ∀ d after, held d → d.MakesDirectory above after → held after) :
    Ends (fun s => held (disk s))
      (FileSystem.makeDirectory above : ExceptT OsError (StateM σ) Unit)
      (fun _ s => held (disk s)) fun s => held (disk s) where
  ok s _ next hs hrun := hmake (disk s) (disk next) hs (makeDirectory_ok above s next hrun)
  error s e next hs hrun := (makeDirectory_error above s next e hrun).symm ▸ hs

theorem ends_ensureDirectory
    (hmake : ∀ d after, held d → d.MakesDirectory above after → held after) :
    Ends (fun s => held (disk s)) (ensureDirectory above : ExceptT OsError (StateM σ) Unit)
      (fun _ s => held (disk s)) fun s => held (disk s) := by
  unfold ensureDirectory
  refine (ends_makeDirectory hmake).attempt (fun _ => (keeps_pure ()).ends held) fun e => ?_
  -- A refusal is forgiven when there is a directory already.
  refine (Keeps.bind (keeps_lift (looking.isDirectory above)) fun there => ?_).ends held
  cases there with
  | true => exact keeps_pure ()
  | false => exact keeps_throw e

theorem ends_ensureDirectories {paths : List Path}
    (hmake : ∀ above ∈ paths, ∀ d after, held d → d.MakesDirectory above after → held after) :
    Ends (fun s => held (disk s)) (ensureDirectories paths : ExceptT OsError (StateM σ) Unit)
      (fun _ s => held (disk s)) fun s => held (disk s) := by
  induction paths with
  | nil => exact (keeps_pure ()).ends _
  | cons above outer ih =>
      have habove := ends_ensureDirectory (σ := σ) (hmake above List.mem_cons_self)
      have houter := ih fun above hmem => hmake above (List.mem_cons_of_mem _ hmem)
      unfold ensureDirectories
      refine habove.attempt (fun _ => (keeps_pure ()).ends held) fun e => ?_
      split
      · exact (keeps_pure ()).ends _
      · exact houter.bind fun _ => habove
      · exact (keeps_throw _).ends held

theorem ends_ensureParent (path : Path) (before : Disk) :
    Ends (fun s => MadeAbove path before (disk s))
      (ensureParent path : ExceptT OsError (StateM σ) Unit)
      (fun _ s => MadeAbove path before (disk s)) fun s => MadeAbove path before (disk s) := by
  unfold ensureParent
  cases hparent : path.parent? with
  | none => exact (keeps_pure ()).ends _
  | some parent =>
      exact ends_ensureDirectories fun above habove _ _ hmade hmake =>
        hmade.makesDirectory hparent habove hmake

/-! ## The temporary file -/

/-- Bytes have been written under the temporary path. -/
def WrittenAbove (path : Path) (bytes : List UInt8) (before written : Disk) : Prop :=
  ∃ made, MadeAbove path before made ∧ made.Writes (temporaryPath path) bytes written

theorem ends_write (path : Path) (bytes : List UInt8) (before : Disk) :
    Ends (fun s => MadeAbove path before (disk s))
      (FileSystem.write (temporaryPath path) bytes : ExceptT OsError (StateM σ) Unit)
      (fun _ s => WrittenAbove path bytes before (disk s))
      fun s => MadeAbove path before (disk s) ∨ ∃ part, WrittenAbove path part before (disk s) where
  ok s _ next hs hrun := ⟨disk s, hs, write_ok (temporaryPath path) bytes s next hrun⟩
  error s e next hs hrun := by
    rcases write_error (temporaryPath path) bytes s next e hrun with hsame | ⟨part, -, hpart⟩
    · exact .inl (hsame.symm ▸ hs)
    · exact .inr ⟨part, disk s, hs, hpart⟩

theorem ends_rename (path : Path) (bytes : List UInt8) (before : Disk) :
    Ends (fun s => WrittenAbove path bytes before (disk s))
      (FileSystem.rename (temporaryPath path) path : ExceptT OsError (StateM σ) Unit)
      (fun _ s => Replaced path bytes before (disk s))
      fun s => MadeAbove path before (disk s) ∨ ∃ part, WrittenAbove path part before (disk s) where
  ok s _ next hs hrun := by
    obtain ⟨made, hmade, hwrite⟩ := hs
    exact ⟨made, disk s, hmade, hwrite, rename_ok (temporaryPath path) path s next hrun
      fun _ => hwrite.at?_ne_directory⟩
  error s e next hs hrun :=
    .inr ⟨bytes, (rename_error (temporaryPath path) path s next e hrun).symm ▸ hs⟩

theorem ends_remove (path : Path) (before : Disk) :
    Ends (fun s => MadeAbove path before (disk s) ∨ ∃ part, WrittenAbove path part before (disk s))
      (FileSystem.remove (temporaryPath path) : ExceptT OsError (StateM σ) Unit)
      (fun _ => Abandoned path before) (Abandoned path before) where
  ok s _ next hs hrun := by
    have hremove := remove_ok (temporaryPath path) s next hrun
    rcases hs with hmade | ⟨part, made, hmade, hwrite⟩
    · exact .cleared hmade hremove
    · exact .undone hmade hwrite hremove
  error s e next hs hrun := by
    rcases hs with hmade | ⟨part, made, hmade, hwrite⟩
    · exact .unwritten ((remove_error (temporaryPath path) s next e hrun).symm ▸ hmade)
    · exact .left ⟨made, part, s, e, hmade, hwrite, hrun⟩

theorem ends_replaceFile (path : Path) (bytes : List UInt8) (before : Disk) :
    Ends (fun s => MadeAbove path before (disk s))
      (replaceFile path bytes : ExceptT OsError (StateM σ) Unit)
      (fun _ s => Replaced path bytes before (disk s)) (Abandoned path before) := by
  have hreplace := (ends_write (σ := σ) path bytes before).bind fun _ =>
    ends_rename path bytes before
  unfold replaceFile
  refine hreplace.attempt (fun ⟨⟩ => ends_pure () fun _ h => h) fun e => ?_
  -- Whether the temporary file can be removed makes no difference to the outcome.
  exact (ends_remove path before).attempt (fun _ => ends_throw e) fun _ => ends_throw e

/-! ## The whole save -/

/-- A save either puts the encoded mapping at its path or is given up. -/
theorem ends_saveMapping (mapping : Mapping) (path : Path) (named : Bool) (before : Disk) :
    Ends (fun s => disk s = before)
      (saveMapping mapping path named : ExceptT WriteError (StateM σ) Unit)
      (fun _ s => ∃ bytes, Artifact.encode mapping named = .ok bytes ∧
        Replaced path bytes before (disk s)) (Abandoned path before) := by
  have hsame (s : σ) (hs : disk s = before) : MadeAbove path before (disk s) :=
    hs ▸ madeAbove_refl path before
  have hencode := (ends_mk_pure (fun s : σ => disk s = before)
    (Artifact.encode mapping named)).adapt WriteError.tooLarge
  have hparent := (ends_ensureParent (σ := σ) path before).adapt WriteError.io
  unfold saveMapping
  refine (hencode.weaken (fun _ h => h) (fun _ _ h => h)
    fun s hs => .unwritten (hsame s hs)).bind fun bytes => ?_
  refine ends_assuming fun hbytes => ?_
  refine (hparent.weaken hsame (fun _ _ h => h) fun _ => .unwritten).bind fun _ => ?_
  refine ((ends_replaceFile path bytes before).adapt WriteError.io).bind fun _ => ?_
  have hreport : Keeps disk (ExceptT.lift (Reporting.report
      [.mappingWritten bytes.length path.text]) : ExceptT WriteError (StateM σ) Unit) :=
    keeps_lift (looking.report _)
  constructor
  · intro s value next hs hrun
    exact ⟨bytes, hbytes, hreport.of_run hrun ▸ hs⟩
  · intro s e next hs hrun
    rw [run_lift] at hrun
    cases hrun

end

end FileMachine
end FieldMap
