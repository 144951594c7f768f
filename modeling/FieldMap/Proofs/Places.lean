import Mathlib.Control.Monad.Basic
import FieldMap.Proofs.DiskChanges
import FieldMap.Proofs.PathsAbove

/-!
# Where a path leads

The directories on the way along a path may have to be made before it leads anywhere.  So the place
of a path is where it leads on the disk with directories wherever nothing is (`Disk.Leads`), and this
place stays the same while directories are made.

`MadeAbove` allows new directories on the way along a path and nothing else.  It is kept by each
directory that is made above the path (`MadeAbove.makesDirectory`), and a path leads to no directory
on the way to it unless it goes up (`KeptAt.eq_of_not_up`).
-/

namespace FieldMap

namespace Disk

/-- The disk with directories wherever nothing is. -/
def completed (disk : Disk) : Disk :=
  { disk with entries := fun l => some ((disk.entries l).getD .directory) }

/-- The path leads to the location, once the directories that are missing on the way are there. -/
def Leads (disk : Disk) (follow : Bool) (path : Path) (location : Location) : Prop :=
  disk.completed.locate follow path = .ok location

instance (disk : Disk) (follow : Bool) (path : Path) (location : Location) :
    Decidable (disk.Leads follow path location) :=
  inferInstanceAs (Decidable (_ = _))

/-- The location is a name of what the path leads to, or the place of what is still missing there. -/
def Names (disk : Disk) (path : Path) (location : Location) : Prop :=
  ∃ there, disk.Leads true path there ∧ disk.SameFile location there

/-- The location lies on the way along a path, before its end. -/
def OnTheWay (disk : Disk) (path : Path) (location : Location) : Prop :=
  ∃ front back, path.segments = front ++ back ∧ (∃ segment ∈ back, segment ≠ ".") ∧
    disk.completed.walk false mostLinks (disk.base path) front = .ok location

/-- Nothing is below what is not there. -/
def Sound (disk : Disk) : Prop :=
  ∀ location name, disk.at? location = none → disk.at? (location ++ [name]) = none

/-- At the location is what was there before, or a directory on the way along the path that was
missing. -/
def KeptAt (path : Path) (before after : Disk) (location : Location) : Prop :=
  after.at? location = before.at? location ∨
    before.at? location = none ∧ after.at? location = some .directory ∧
      before.OnTheWay path location

/-- Nothing has changed, but for directories that were missing on the way along the path. -/
structure MadeAbove (path : Path) (before after : Disk) : Prop where
  workingDirectory : after.workingDirectory = before.workingDirectory
  kept : ∀ l, KeptAt path before after l

section
variable {disk before middle after : Disk} {follow : Bool} {path above : Path}
  {location l m : Location}

/-! ## Places -/

theorem at?_completed (disk : Disk) (l : Location) :
    disk.completed.at? l = some ((disk.at? l).getD .directory) := by
  unfold at? completed
  split
  · rfl
  · rfl

theorem link?_completed (disk : Disk) (l : Location) : disk.completed.link? l = disk.link? l := by
  rw [link?, link?, at?_completed]
  cases disk.at? l with
  | none => rfl
  | some entry => rfl

theorem Leads.unique (h : disk.Leads follow path l) (h' : disk.Leads follow path m) : l = m :=
  Except.ok.inj (h.symm.trans h')

/-- A path leads to one place before and after directories have been made where nothing was. -/
theorem leads_of_locate (h : middle.locate follow path = .ok l)
    (hworking : middle.workingDirectory = before.workingDirectory)
    (hdirectories : ∀ l, middle.at? l = some .directory →
      before.at? l = some .directory ∨ before.at? l = none)
    (hlinks : ∀ l, middle.link? l = before.link? l) : before.Leads follow path l := by
  refine locate_of_entries h hworking.symm (fun m hm => ?_) (fun m _ => ?_) (fun hnone => ?_)
  · rw [at?_completed]
    rcases hdirectories m hm with hsame | hnone
    · rw [hsame]
      rfl
    · rw [hnone]
      rfl
  · rw [link?_completed, hlinks]
  · rw [link?_completed, ← hlinks, link?_of_none hnone]

theorem Leads.followed (h : disk.Leads false path l) (hlink : disk.link? l = none) :
    disk.Leads true path l :=
  locate_true_of_locate_false h ((disk.link?_completed l).trans hlink)

/-! ## Directories that are made -/

theorem KeptAt.directory (h : KeptAt path before after l) (hl : before.at? l = some .directory) :
    after.at? l = some .directory := by
  rcases h with hsame | ⟨hnone, -, -⟩
  · rw [hsame, hl]
  · rw [hnone] at hl
    cases hl

theorem KeptAt.eq_of_number? {number : Nat} (h : KeptAt path before after l)
    (hnumber : before.number? l = some number) : after.at? l = before.at? l := by
  rcases h with hsame | ⟨hnone, -, -⟩
  · exact hsame
  · rw [number?_of_none hnone] at hnumber
    cases hnumber

theorem KeptAt.number?_eq (h : KeptAt path before after l) : after.number? l = before.number? l := by
  rcases h with hsame | ⟨hnone, hmade, -⟩
  · exact number?_congr hsame
  · rw [number?_of_none hnone, number?_of_directory hmade]

theorem KeptAt.link?_eq (h : KeptAt path before after l) : after.link? l = before.link? l := by
  rcases h with hsame | ⟨hnone, hmade, -⟩
  · exact link?_congr hsame
  · rw [link?_of_none hnone, link?_of_directory hmade]

theorem madeAbove_refl (path : Path) (disk : Disk) : MadeAbove path disk disk where
  workingDirectory := rfl
  kept _ := .inl rfl

theorem MadeAbove.made (h : MadeAbove path before after) (hl : after.at? l = some .directory) :
    before.at? l = some .directory ∨ before.at? l = none ∧ before.OnTheWay path l := by
  rcases h.kept l with hsame | ⟨hnone, -, hway⟩
  · exact .inl (hsame ▸ hl)
  · exact .inr ⟨hnone, hway⟩

theorem MadeAbove.leads {other : Path} (h : MadeAbove path before after)
    (hlocate : after.locate follow other = .ok l) : before.Leads follow other l :=
  leads_of_locate hlocate h.workingDirectory (fun _ hl => (h.made hl).imp_right And.left)
    fun m => (h.kept m).link?_eq

theorem MadeAbove.sameFile_iff (h : MadeAbove path before after) :
    after.SameFile l m ↔ before.SameFile l m := by
  rw [SameFile, SameFile, (h.kept l).number?_eq, (h.kept m).number?_eq]

/-- A directory that is made for the path lies on the way along it. -/
theorem onTheWay_of_mem_chain {parent : Path} (hparent : path.parent? = some parent)
    (habove : above ∈ parent.chain) (h : disk.Leads false above l) : disk.OnTheWay path l := by
  obtain ⟨habsolute, back, hback, hsegments⟩ :=
    Path.exists_segments_of_mem_chain hparent habove
  obtain ⟨-, -, -, hway⟩ := locate_eq_ok_iff.mp h
  refine ⟨above.segments, back, hsegments, hback, ?_⟩
  have hbase : disk.completed.base above = disk.base path := by
    rw [base, base, habsolute]
    rfl
  rw [walk_eq_ok_iff, ← hbase]
  exact hway

/-- One more directory above the path. -/
theorem MadeAbove.makesDirectory {parent : Path} (h : MadeAbove path before middle)
    (hparent : path.parent? = some parent) (habove : above ∈ parent.chain)
    (hmake : middle.MakesDirectory above after) : MadeAbove path before after := by
  obtain ⟨made, hlocate, hfree, hworking, hafter⟩ := hmake.at?_eq
  refine ⟨hworking.trans h.workingDirectory, fun l => ?_⟩
  rw [KeptAt, hafter]
  by_cases hl : l = made
  · subst hl
    have hway := onTheWay_of_mem_chain hparent habove (h.leads hlocate)
    rcases h.kept l with hsame | ⟨-, hmade, -⟩
    · exact .inr ⟨hsame ▸ hfree, if_pos rfl, hway⟩
    · rw [hfree] at hmade
      cases hmade
  · rw [if_neg hl]
    exact h.kept l

/-! ## Paths that do not go up -/

/-- Below what is not there, a way only goes down. -/
theorem Way.exists_eq_append_of_sound {links : Nat} {here : Location} {segments : List String}
    (h : Way disk.completed follow location links here segments) (hsound : disk.Sound)
    (hhere : disk.at? here = none) (hup : ".." ∉ segments) :
    ∃ below, location = here ++ below ∧ below.length = (segments.filter (· ≠ ".")).length := by
  induction h with
  | arrived => exact ⟨[], (List.append_nil _).symm, rfl⟩
  | @on links here segment rest _ _ _ _ ih =>
      rw [List.mem_cons, not_or] at hup
      obtain ⟨hsegment, hrest⟩ := hup
      by_cases hdot : segment = "."
      · subst hdot
        obtain ⟨below, hbelow, hlength⟩ := ih hhere hrest
        exact ⟨below, hbelow, by simpa using hlength⟩
      · have hstep : step here segment = here ++ [segment] := by
          simp [step, hdot, Ne.symm hsegment]
        rw [hstep] at ih
        obtain ⟨below, hbelow, hlength⟩ := ih (hsound here segment hhere) hrest
        refine ⟨segment :: below, by simpa using hbelow, ?_⟩
        simp [hdot, hlength]
  | @stay links here segment target _ _ hlink | @through links here segment rest target _ _ hlink =>
      -- Neither the place itself nor what would be below it is a link.
      rw [List.mem_cons, not_or] at hup
      rw [link?_completed] at hlink
      by_cases hdot : segment = "."
      · have hstep : step here segment = here := by simp [step, hdot]
        rw [hstep, link?_of_none hhere] at hlink
        cases hlink
      · have hstep : step here segment = here ++ [segment] := by
          simp [step, hdot, Ne.symm hup.1]
        rw [hstep, link?_of_none (hsound here segment hhere)] at hlink
        cases hlink

/-- A path that does not go up leads away from all directories that are missing on the way. -/
theorem OnTheWay.ne_of_leads (h : disk.OnTheWay path l) (hl : disk.at? l = none)
    (hsound : disk.Sound) (hup : ".." ∉ path.segments) (hleads : disk.Leads false path m) :
    l ≠ m := by
  obtain ⟨front, back, hsegments, ⟨segment, hsegment, hdot⟩, hfront⟩ := h
  obtain ⟨-, -, -, hway⟩ := locate_eq_ok_iff.mp hleads
  have hlink : disk.completed.link? l = none := by rw [link?_completed, link?_of_none hl]
  rw [hsegments] at hway
  obtain ⟨fewer, hback⟩ := (walk_eq_ok_iff.mp hfront).of_append hlink hway
  have hupBack : ".." ∉ back := fun hmem => hup (hsegments ▸ List.mem_append_right _ hmem)
  obtain ⟨below, rfl, hlength⟩ := hback.exists_eq_append_of_sound hsound hl hupBack
  have hpositive : 0 < (back.filter (· ≠ ".")).length :=
    List.length_pos_of_mem (List.mem_filter.mpr ⟨hsegment, by simpa using hdot⟩)
  intro hsame
  have hlengths := congrArg List.length hsame
  rw [List.length_append] at hlengths
  omega

theorem KeptAt.eq_of_not_up (h : KeptAt path before after l) (hleads : before.Leads false path l)
    (hsound : before.Sound) (hup : ".." ∉ path.segments) : after.at? l = before.at? l := by
  rcases h with hsame | ⟨hnone, -, hway⟩
  · exact hsame
  · exact absurd rfl (hway.ne_of_leads hnone hsound hup hleads)

end

end Disk
end FieldMap
