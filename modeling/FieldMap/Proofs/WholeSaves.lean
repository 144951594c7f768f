import FieldMap.Proofs.ReplacedFiles

/-!
# Saves as a whole

A save is done in three steps, each of which may be refused: the directories above the path are
made, the temporary file is written and moved to the place, and the temporary file is removed when
that fails.  The main result says what is where afterwards, wherever a save has stopped and on any
machine.

Two things may be new though nothing has been saved.  Directories that were made above the path
stay, and one of them may lie where the path leads: for the path `loop/../loop` the directory `loop`
is made before anything can be written beside it.  This takes a path that goes up
(`Disk.KeptAt.eq_of_not_up`).  And a temporary file stays when the machine refuses to remove it, for
which the files themselves never give a reason (`not_cleanUpRefused_world`).

A save relies on the temporary path being its own.  If something is there that is reached under
another path as well, a link or a second name, then this is written to; and if it is the file at the
path itself, moving it there does nothing, or leaves a link to nowhere.  Both are shown at the end.
-/

namespace FieldMap

namespace FileMachine

open Disk

section
variable {σ : Type} [FileSystem (StateM σ)] [Reporting (StateM σ)] {mapping : Mapping}
  {named : Bool}

/-- A mapping that is too large is refused before anything is done. -/
theorem run_saveMapping_of_excess {excess : Artifact.Excess}
    (h : Artifact.encode mapping named = .error excess) (path : Path) (s : σ) :
    (saveMapping mapping path named : ExceptT WriteError (StateM σ) Unit).run s =
      (.error (.tooLarge excess), s) := by
  have hencode : (ExceptT.adapt WriteError.tooLarge
      (ExceptT.mk (pure (Artifact.encode mapping named))) :
        ExceptT WriteError (StateM σ) (List UInt8)).run s = (.error (.tooLarge excess), s) :=
    run_adapt_eq_error_iff.mpr ⟨excess, run_mk_pure_eq_error_iff.mpr ⟨h, rfl⟩, rfl⟩
  exact run_bind_of_error hencode

end

section
variable {σ : Type} [FileSystem (StateM σ)] [Reporting (StateM σ)] [Terminal (StateM σ)]
  [FileMachine σ] {path : Path} {before : Disk} {next : σ} {temporary : Location}

/-- At the temporary path of a save that is given up is nothing, or what was there before, unless the
machine has refused to remove it. -/
theorem Abandoned.at?_temporary (h : Abandoned path before next)
    (htemporary : before.Leads false (temporaryPath path) temporary) :
    (disk next).at? temporary = none ∨ KeptAt path before (disk next) temporary ∨
      CleanUpRefused path before next := by
  have hgone {touched : Disk} (htouched : Touched path before touched)
      (hremove : touched.Removes (temporaryPath path) (disk next)) :
      (disk next).at? temporary = none := by
    obtain ⟨own, number, hlocate, -, -, hafter⟩ := hremove.at?_eq
    rw [hafter, if_pos (htemporary.unique (htouched.leads hlocate))]
  cases h with
  | unwritten hmade => exact .inr (.inl (hmade.kept temporary))
  | cleared hmade hremove => exact .inl (hgone hmade.touched hremove)
  | undone hmade hwrite hremove => exact .inl (hgone (hmade.touched_of_writes hwrite) hremove)
  | left hrefused => exact .inr (.inr hrefused)

/-- The path's own entry stays as it was, if everything else but the temporary file does. -/
theorem Abandoned.keptAt_own {own : Location} (h : Abandoned path before next)
    (hkept : ∀ l, ¬ before.Leads false (temporaryPath path) l →
      KeptAt path before (disk next) l)
    (hown : before.Leads false path own) (hlink : path.endsInDots = true → before.link? own = none) :
    KeptAt path before (disk next) own ∨
      path.endsInDots = true ∧ CleanUpRefused path before next := by
  by_cases htemporary : before.Leads false (temporaryPath path) own
  · have hdots := hown.endsInDots_of_temporary htemporary
    rcases h.at?_temporary htemporary with hgone | hsame | hrefused
    · -- Nothing was there before, since no directory has gone.
      rcases hown.at?_of_temporary htemporary (hlink hdots) with hnone | hdirectory
      · exact .inl (.inl (hgone.trans hnone.symm))
      · rw [h.spared.directories own hdirectory] at hgone
        cases hgone
    · exact .inl hsame
    · exact .inr ⟨hdots, hrefused⟩
  · exact .inl (hkept own htemporary)

/-- A save is done as a whole or not at all, on any machine and whatever it refuses.

When it succeeds, the encoded mapping is at the path and the temporary path is gone, and the mapping
is read at the path unless it depends on a link that has been replaced.  When it fails, the path's own
entry is what was there before; only if nothing was there, and the path goes up, it may be one of the
directories above it.  The temporary file is gone or was there before, unless the machine refuses to
remove it.  A mapping that is too large changes nothing at all.

A path that ends in dots leads to no link, unless a directory is below one.  It may lead to its own
temporary file, if nothing was there, and then this is the one that is removed.

This holds where the temporary path is unshared.  Where it is not, nothing changes elsewhere but the
file that the temporary path leads to, and directories that were missing on the way. -/
theorem saveMapping_all_or_nothing (mapping : Mapping) (path : Path) (named : Bool) (s : σ) :
    match (saveMapping mapping path named : ExceptT WriteError (StateM σ) Unit).run s with
    | (.ok (), next) =>
      ∃ bytes own temporary, Artifact.encode mapping named = .ok bytes ∧
        (disk s).Leads false path own ∧ (disk s).Leads false (temporaryPath path) temporary ∧
        (∀ l, l ≠ own → l ≠ temporary → ¬ (disk s).Names (temporaryPath path) l →
          KeptAt path (disk s) (disk next) l) ∧
        ((disk s).Unshared (temporaryPath path) →
          (disk next).bytes? own = some bytes ∧ (disk next).at? temporary = none ∧
          ((disk s).Clear path → (disk next).content? path = some bytes) ∧
          ∀ l, l ≠ own → l ≠ temporary → KeptAt path (disk s) (disk next) l)
    | (.error e, next) =>
      (∀ excess, Artifact.encode mapping named = .error excess → e = .tooLarge excess ∧ next = s) ∧
      Spared path (disk s) (disk next) ∧
      ((disk s).Unshared (temporaryPath path) →
        (∀ l, ¬ (disk s).Leads false (temporaryPath path) l →
          KeptAt path (disk s) (disk next) l) ∧
        (∀ own, (disk s).Leads false path own →
          (path.endsInDots = true → (disk s).link? own = none) →
          KeptAt path (disk s) (disk next) own ∧
              ((disk s).Sound → ".." ∉ path.segments →
                (disk next).at? own = (disk s).at? own) ∨
            path.endsInDots = true ∧ CleanUpRefused path (disk s) next) ∧
        ∀ temporary, (disk s).Leads false (temporaryPath path) temporary →
          (disk next).at? temporary = none ∨ KeptAt path (disk s) (disk next) temporary ∨
            CleanUpRefused path (disk s) next) := by
  have hends := ends_saveMapping (σ := σ) mapping path named (disk s)
  rcases hrun : (saveMapping mapping path named : ExceptT WriteError (StateM σ) Unit).run s with
    ⟨e | ⟨⟩, next⟩
  · have habandoned := hends.error s e next rfl hrun
    have hspared := habandoned.spared
    refine ⟨fun excess hexcess => ?_, hspared, fun hunshared => ?_⟩
    · rw [run_saveMapping_of_excess hexcess] at hrun
      cases hrun
      exact ⟨rfl, rfl⟩
    · have hkept (l : Location) (hl : ¬ (disk s).Leads false (temporaryPath path) l) :
          KeptAt path (disk s) (disk next) l :=
        hspared.kept l hl fun hnames => hl (hunshared.leads_of_names hnames)
      refine ⟨hkept, fun own hown hlink => ?_, fun temporary => habandoned.at?_temporary⟩
      exact (habandoned.keptAt_own hkept hown hlink).imp_left fun hpath =>
        ⟨hpath, hpath.eq_of_not_up hown⟩
  · obtain ⟨bytes, hbytes, hreplaced⟩ := hends.ok s () next rfl hrun
    obtain ⟨made, written, own, temporary, -, -, hmoved⟩ := hreplaced.exists_moved
    have hown := hmoved.leads_own
    have htemporary := hmoved.leads_temporary
    refine ⟨bytes, own, temporary, hbytes, hown, htemporary,
      fun l => hreplaced.kept hown htemporary, fun hunshared => ?_⟩
    refine ⟨hreplaced.bytes?_own hunshared.plain hown,
      hreplaced.at?_temporary hunshared htemporary, hreplaced.content?_eq hunshared.plain,
      fun l hl hother => hreplaced.kept hown htemporary hl hother fun hnames => ?_⟩
    exact hother ((hunshared.leads_of_names hnames).unique htemporary)

end

/-- The files themselves are no reason to refuse: a world removes every temporary file. -/
theorem not_cleanUpRefused_world (path : Path) (before : Disk) (next : World) :
    ¬ CleanUpRefused path before next := by
  rintro ⟨made, part, failed, refusal, -, hwrite, hremove⟩
  have hrefused : failed.tree.remove (temporaryPath path) = .error refusal :=
    (World.of_change_eq_error hremove).1
  obtain ⟨there, hthere, hnumber⟩ := hwrite.exists_number
  obtain ⟨own, hown, hnext⟩ := exists_locate_false hthere
  have hfound : failed.tree.disk.locate false (temporaryPath path) = .ok own := by
    refine locate_of_entries hown hwrite.workingDirectory_eq
      (fun _ => hwrite.directory_iff.mpr) (fun l _ => hwrite.link?_eq l) fun hnone => ?_
    exact (hwrite.link?_eq own).trans (link?_of_none hnone)
  -- The temporary path's own entry has been written to, or is the link to what has been.
  have hentry : ∃ number inode, failed.tree.disk.at? own = some (.inode number inode) := by
    rcases hnext with rfl | hlink
    · obtain ⟨number, hnumber⟩ := Option.ne_none_iff_exists'.mp hnumber
      exact ⟨number, number?_eq_some_iff.mp hnumber⟩
    · obtain ⟨target, htarget⟩ := Option.ne_none_iff_exists'.mp hlink
      obtain ⟨number, hat⟩ := link?_eq_some_iff.mp ((hwrite.link?_eq own).trans htarget)
      exact ⟨number, _, hat⟩
  obtain ⟨number, inode, hat⟩ := hentry
  have hremoved : failed.tree.remove (temporaryPath path) = .ok (failed.tree.erase own) := by
    simp [FileTree.remove, hfound, hat, Path.endsInSlash_temporaryPath]
  cases hremoved.symm.trans hrefused

/-! ## Saves that fail -/

/-- A mapping of one byte. -/
def levelMapping : Mapping where
  sizes := [1]
  properties := .cons 0 (some "level") .nil .nil

/-- A disk with another mapping, on which nothing can be moved. -/
def stuckDisk : FaultyWorld where
  world := { tree := { entries := [(["level.mrmap"], .inode 0 (.file [77]))] } }
  faults := [none, some ⟨.other 5 "Input/output error", 0⟩]

theorem unshared_stuckDisk : (disk stuckDisk).Unshared (temporaryPath ⟨"level.mrmap"⟩) := by
  intro l hl
  have htemporary : (disk stuckDisk).Leads false (temporaryPath ⟨"level.mrmap"⟩)
      ["level.mrmap.tmp"] := by decide +kernel
  rw [hl.unique htemporary]
  exact .inl (by decide +kernel)

/-- The other mapping is still there, and the temporary file is not. -/
theorem stuckDisk_kept :
    ∃ last : FaultyWorld,
      (saveMapping levelMapping ⟨"level.mrmap"⟩ false :
        ExceptT WriteError (StateM FaultyWorld) Unit).run stuckDisk =
          (.error (.io (.other 5 "Input/output error")), last) ∧
      (disk last).bytes? ["level.mrmap"] = some [77] ∧
      (disk last).at? ["level.mrmap.tmp"] = none := by
  have hall := saveMapping_all_or_nothing levelMapping ⟨"level.mrmap"⟩ false stuckDisk
  have hfails : ((saveMapping levelMapping ⟨"level.mrmap"⟩ false :
      ExceptT WriteError (StateM FaultyWorld) Unit).run stuckDisk).1 =
        .error (.io (.other 5 "Input/output error")) := by decide +kernel
  have hgone : (disk ((saveMapping levelMapping ⟨"level.mrmap"⟩ false :
      ExceptT WriteError (StateM FaultyWorld) Unit).run stuckDisk).2).at?
        ["level.mrmap.tmp"] = none := by decide +kernel
  rcases hrun : (saveMapping levelMapping ⟨"level.mrmap"⟩ false :
    ExceptT WriteError (StateM FaultyWorld) Unit).run stuckDisk with ⟨outcome, last⟩
  rw [hrun] at hall hfails hgone
  obtain rfl : outcome = _ := hfails
  have hplace : (disk stuckDisk).Leads false ⟨"level.mrmap"⟩ ["level.mrmap"] := by decide +kernel
  have hdots : (Path.mk "level.mrmap").endsInDots = false := by decide +kernel
  have hfile (hends : (Path.mk "level.mrmap").endsInDots = true) :
      (disk stuckDisk).link? ["level.mrmap"] = none := by
    rw [hdots] at hends
    cases hends
  have hbefore : (disk stuckDisk).at? ["level.mrmap"] = some (.inode 0 (.file [77])) := by
    decide +kernel
  obtain ⟨-, -, hunshared⟩ := hall
  obtain ⟨-, hpath, -⟩ := hunshared unshared_stuckDisk
  obtain ⟨hkept, -⟩ := (hpath _ hplace hfile).resolve_right fun hrefused => by
    rw [hdots] at hrefused
    cases hrefused.1
  have hnumber := number?_eq_some_iff.mpr ⟨_, hbefore⟩
  refine ⟨last, rfl, bytes?_eq_some_iff.mpr ⟨0, ?_⟩, hgone⟩
  rw [hkept.eq_of_number? hnumber, hbefore]

/-- A path that goes up leads to a directory above it.  The directory is made, nothing can be moved
there, and the directory stays. -/
theorem loop_makes_directory :
    ((saveMapping levelMapping ⟨"loop/../loop"⟩ false :
        ExceptT WriteError (StateM World) Unit).run {}).1 = .error (.io .isDirectory) ∧
      (disk ({} : World)).Leads false ⟨"loop/../loop"⟩ ["loop"] ∧
      (disk ({} : World)).at? ["loop"] = none ∧
      (disk ((saveMapping levelMapping ⟨"loop/../loop"⟩ false :
        ExceptT WriteError (StateM World) Unit).run {}).2).at? ["loop"] = some .directory := by
  refine ⟨?_, ?_, ?_, ?_⟩
  all_goals decide +kernel

/-! ## Temporary paths that are not their own -/

/-- With one file at the path and at its temporary one, the mapping is saved, but the temporary name
stays: moving a name to another name of the same file does nothing. -/
example :
    let world : World :=
      { tree := { entries := [(["level.mrmap"], .inode 0 (.file [77])),
          (["level.mrmap.tmp"], .inode 0 (.file [77]))] } }
    let save : ExceptT WriteError (StateM World) Unit :=
      saveMapping levelMapping ⟨"level.mrmap"⟩ false
    (save.run world).1 = .ok () ∧
      (disk (save.run world).2).number? ["level.mrmap.tmp"] = some 0 := by
  decide +kernel

/-- With a link to the path at its temporary one, the mapping is saved, and the path leads nowhere:
the link has been moved there and is a link to itself. -/
example :
    let world : World :=
      { tree := { entries := [(["level.mrmap"], .inode 0 (.file [77])),
          (["level.mrmap.tmp"], .inode 1 (.link ⟨"level.mrmap"⟩))] } }
    let save : ExceptT WriteError (StateM World) Unit :=
      saveMapping levelMapping ⟨"level.mrmap"⟩ false
    (save.run world).1 = .ok () ∧ (disk (save.run world).2).content? ⟨"level.mrmap"⟩ = none := by
  decide +kernel

end FileMachine
end FieldMap
