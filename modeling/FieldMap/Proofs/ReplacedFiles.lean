import FieldMap.Proofs.SavedFiles

/-!
# Files that have been replaced

What is at the path after the bytes have been put there, and what is elsewhere.  All depends on what
was at the temporary path before.  If it was a link, this link is moved to the path, and the bytes
are where it leads.  So:

* `Disk.Plain` says that no link and no special file was there.  Then the file at the path has the
  bytes (`Replaced.bytes?_own`).  They are read at the path, unless it leads through a link that was
  at its own end and has been replaced (`Replaced.content?_eq`).
* `Disk.Unshared` says that no other name of a regular file was there, either.  Then nothing is left
  at the temporary path (`Replaced.at?_temporary`).
* All other entries are as they were, but for the file that the temporary path leads to
  (`Replaced.kept`), and a regular file that can be reached without the entries at the two paths is
  read as before (`Replaced.content?_of_without`).
-/

namespace FieldMap

namespace Disk

/-- Nothing is at the path but a directory or a regular file. -/
def Plain (disk : Disk) (path : Path) : Prop :=
  ∀ l, disk.Leads false path l →
    disk.at? l = none ∨ disk.at? l = some .directory ∨ disk.bytes? l ≠ none

/-- Nothing is at the path but a directory or a regular file that has no other name. -/
def Unshared (disk : Disk) (path : Path) : Prop :=
  ∀ l, disk.Leads false path l →
    disk.at? l = none ∨ disk.at? l = some .directory ∨
      disk.bytes? l ≠ none ∧ ∀ m, disk.number? m = disk.number? l → m = l

/-- The path does not lead through a link that is at its own end. -/
def Clear (disk : Disk) (path : Path) : Prop :=
  ∀ l, disk.Leads false path l →
    disk.link? l = none ∨ (disk.completed.set l none).locate false path = .ok l

/-- The disk with nothing at two locations. -/
def without (disk : Disk) (l m : Location) : Disk :=
  (disk.set l none).set m none

section
variable {disk other before after : Disk} {path input : Path} {bytes content : List UInt8}
  {l m own temporary : Location}

theorem link?_of_bytes? (h : disk.bytes? l ≠ none) : disk.link? l = none := by
  obtain ⟨bytes, hbytes⟩ := Option.ne_none_iff_exists'.mp h
  obtain ⟨number, hat⟩ := bytes?_eq_some_iff.mp hbytes
  rw [link?, hat]

theorem Plain.link?_eq (h : disk.Plain path) (hl : disk.Leads false path l) :
    disk.link? l = none := by
  rcases h l hl with hnone | hdirectory | hfile
  · exact link?_of_none hnone
  · exact link?_of_directory hdirectory
  · exact link?_of_bytes? hfile

theorem Unshared.plain (h : disk.Unshared path) : disk.Plain path :=
  fun l hl => (h l hl).imp_right (Or.imp_right And.left)

/-- The file that an unshared path leads to has no other name. -/
theorem Unshared.leads_of_names (h : disk.Unshared path) (hl : disk.Names path l) :
    disk.Leads false path l := by
  obtain ⟨there, hthere, hsame⟩ := hl
  obtain ⟨own, hown, hnext⟩ := exists_locate_false hthere
  have hlink : disk.completed.link? own = none := (disk.link?_completed own).trans
    (h.plain.link?_eq hown)
  obtain rfl := hnext.resolve_right (absurd hlink)
  rcases hsame with rfl | ⟨number, hnumber, hthereNumber⟩
  · exact hown
  · rcases h own hown with hnone | hdirectory | ⟨-, honly⟩
    · rw [number?_of_none hnone] at hthereNumber
      cases hthereNumber
    · rw [number?_of_directory hdirectory] at hthereNumber
      cases hthereNumber
    · rwa [honly l (hnumber.trans hthereNumber.symm)]

/-! ## The way to the path -/

/-- If one disk leads to a location without it, and another one leads there with the same links, then
this one does so without the location as well. -/
theorem Way.set_none {links links' : Nat} {here : Location} {segments : List String}
    (h : Way disk false l links here segments) (h' : Way other false l links' here segments)
    (habsent : other.at? l = none) (hlinks : ∀ m, m ≠ l → other.link? m = disk.link? m) :
    Way (disk.set l none) false l links here segments := by
  have hroot : l ≠ [] := ne_nil_of_none habsent
  have hlast : (disk.set l none).link? l = none :=
    link?_of_none (by rw [at?_set hroot, if_pos rfl])
  have helse {m : Location} (hm : m ≠ l) : (disk.set l none).at? m = disk.at? m := by
    rw [at?_set hroot, if_neg hm]
  have hdirectory {m : Location} (hm : other.at? m = some .directory)
      (hat : disk.at? m = some .directory) : (disk.set l none).at? m = some .directory := by
    rw [helse, hat]
    rintro rfl
    rw [habsent] at hm
    cases hm
  have hne {m : Location} {target : Path} (hm : other.link? m = some target) : m ≠ l := by
    rintro rfl
    rw [link?_of_none habsent] at hm
    cases hm
  induction h generalizing links' with
  | arrived => exact .arrived
  | @on links here segment rest hhere hname hlink _ ih =>
      cases h' with
      | on hhere' _ _ hrest' =>
          refine .on (hdirectory hhere' hhere) hname ?_ (ih hrest')
          by_cases hstep : step here segment = l
          · rw [hstep, hlast]
          · rw [link?_congr (helse hstep), hlink]
      | stay _ _ hlink' | through _ _ hlink' =>
          rw [hlinks _ (hne hlink'), hlink] at hlink'
          cases hlink'
  | @stay links here segment target hhere hname hlink _ hlocation =>
      cases h' with
      | on hhere' _ _ hrest' =>
          refine .on (hdirectory hhere' hhere) hname (hlocation ▸ hlast) ?_
          rw [← hlocation]
          exact .arrived
      | stay _ _ hlink' => exact absurd hlocation.symm (hne hlink')
      | through _ _ _ hmore => exact absurd ⟨rfl, rfl⟩ hmore
  | @through links here segment rest target hhere hname hlink hmore htarget _ ih =>
      cases h' with
      | on hhere' _ hlink' hrest' =>
          -- Only at the location itself can there be a link on one of the disks and none on the other.
          have hstep : step here segment = l := by
            by_cases hstep : step here segment = l
            · exact hstep
            · rw [hlinks _ hstep, hlink] at hlink'
              cases hlink'
          rw [hstep] at hrest'
          cases hrest' with
          | arrived => exact absurd ⟨rfl, rfl⟩ hmore
          | on hnext | stay hnext | through hnext =>
              rw [habsent] at hnext
              cases hnext
      | stay => exact absurd ⟨rfl, rfl⟩ hmore
      | through hhere' _ hlink' _ _ hbeyond' =>
          have hstep := hne hlink'
          cases hlink'.symm.trans ((hlinks _ hstep).trans hlink)
          exact .through (hdirectory hhere' hhere) hname
            ((link?_congr (helse hstep)).trans hlink) hmore htarget (ih hbeyond')

theorem locate_set_none (h : disk.locate false path = .ok l)
    (h' : other.locate false path = .ok l)
    (hworking : other.workingDirectory = disk.workingDirectory) (habsent : other.at? l = none)
    (hlinks : ∀ m, m ≠ l → other.link? m = disk.link? m) :
    (disk.set l none).locate false path = .ok l := by
  rw [locate_eq_ok_iff] at h h' ⊢
  obtain ⟨hnul, hempty, hlong, hway⟩ := h
  obtain ⟨-, -, -, hway'⟩ := h'
  rw [base_congr hworking] at hway'
  exact ⟨hnul, hempty, hlong, hway.set_none hway' habsent hlinks⟩

/-! ## What is at the path -/

/-- What has been written at a path without links and special files is a regular file with the bytes,
and all names of it are names that it had before. -/
theorem MadeAbove.at?_of_plain {made written : Disk} (h : MadeAbove path before made)
    (hwrite : made.Writes (temporaryPath path) bytes written)
    (hlocate : written.locate false (temporaryPath path) = .ok temporary)
    (hplain : before.Plain (temporaryPath path)) :
    ∃ number, written.at? temporary = some (.inode number (.file bytes)) ∧
      ∀ l, written.number? l = some number → before.SameFile l temporary := by
  have hleads := (h.touched_of_writes hwrite).leads hlocate
  have hlink := (h.kept temporary).link?_eq.trans (hplain.link?_eq hleads)
  have hthere := locate_true_of_locate_false (hwrite.locate_of_locate hlocate) hlink
  obtain ⟨there, hother, hfree, -⟩ := hwrite.at?_of_not_sameFile
  obtain rfl : there = temporary := Except.ok.inj (hother.symm.trans hthere)
  have hregular : made.at? there = none ∨ made.bytes? there ≠ none := by
    rcases h.kept there with hsame | ⟨-, hmade, -⟩
    · rcases hplain there hleads with hnone | hdirectory | hfile
      · exact .inl (hsame.trans hnone)
      · exact absurd (hsame.trans hdirectory) hfree
      · exact .inr (bytes?_congr hsame ▸ hfile)
    · exact absurd hmade hfree
  obtain ⟨number, hat, hnames⟩ := hwrite.at?_of_regular hthere hregular
  exact ⟨number, hat, fun l hl => h.sameFile_iff.mp (hnames l hl)⟩

/-- Where no link and no special file was at the temporary path, the file at the path has the
bytes. -/
theorem Replaced.bytes?_own (h : Replaced path bytes before after)
    (hplain : before.Plain (temporaryPath path)) (hown : before.Leads false path own) :
    after.bytes? own = some bytes := by
  obtain ⟨made, written, here, temporary, hmade, hwrite, hmoved⟩ := h.exists_moved
  obtain rfl := hown.unique hmoved.leads_own
  obtain ⟨number, hat, -⟩ := hmade.at?_of_plain hwrite hmoved.locate_temporary hplain
  exact bytes?_eq_some_iff.mpr ⟨number, hmoved.at_own.trans hat⟩

/-- The way to a clear path does not lead through the entry at the path. -/
theorem Moved.locate_set_none {written : Disk} (h : Moved path before written after own temporary)
    (hclear : before.Clear path) : (written.set own none).locate false path = .ok own := by
  have helse {d : Disk} {l : Location} (hl : l ≠ own) : (d.set own none).at? l = d.at? l := by
    rw [at?_set h.own_ne_nil, if_neg hl]
  have hnone (d : Disk) : (d.set own none).at? own = none := by
    rw [at?_set h.own_ne_nil, if_pos rfl]
  rcases hclear own h.leads_own with hlink | hcompleted
  · refine locate_of_entries h.locate_own rfl (fun l hl => ?_) (fun l _ => ?_)
      fun _ => link?_of_none (hnone written)
    · rw [helse, hl]
      rintro rfl
      exact h.free hl
    · by_cases hl : l = own
      · rw [hl, h.touched.links, hlink, link?_of_none (hnone written)]
      · exact link?_congr (helse hl)
  · refine Disk.locate_set_none h.locate_own hcompleted h.touched.workingDirectory.symm
      (hnone before.completed) fun l hl => ?_
    rw [link?_congr (helse hl), link?_completed, h.touched.links]

/-- Where no link and no special file was at the temporary path, the bytes are read at a clear
path. -/
theorem Replaced.content?_eq (h : Replaced path bytes before after)
    (hplain : before.Plain (temporaryPath path)) (hclear : before.Clear path) :
    after.content? path = some bytes := by
  obtain ⟨made, written, own, temporary, hmade, hwrite, hmoved⟩ := h.exists_moved
  have hbytes := h.bytes?_own hplain hmoved.leads_own
  have hlink : after.link? own = none := link?_of_bytes? (by simp [hbytes])
  have htemporary : written.link? temporary = none :=
    (hmoved.touched.links temporary).trans (hplain.link?_eq hmoved.leads_temporary)
  have hset {l : Location} (hl : (written.set own none).at? l ≠ none) :
      l ≠ own ∧ (written.set own none).at? l = written.at? l := by
    rw [at?_set hmoved.own_ne_nil] at hl ⊢
    by_cases hown : l = own
    · rw [if_pos hown] at hl
      exact absurd rfl hl
    · exact ⟨hown, if_neg hown⟩
  have hread : after.locate false path = .ok own := by
    refine locate_of_entries (hmoved.locate_set_none hclear)
      (hmoved.workingDirectory.trans hmoved.touched.workingDirectory.symm) (fun l hl => ?_)
      (fun l hl => ?_) fun _ => hlink
    · exact hmoved.directory ((hset (l := l) (by simp [hl])).2.symm.trans hl)
    · obtain ⟨hown, hsame⟩ := hset hl
      rw [link?_congr hsame]
      by_cases hother : l = temporary
      · subst hother
        rw [htemporary]
        rcases hmoved.at_temporary with ⟨-, hkept⟩ | hnone
        · rw [link?_congr hkept, htemporary]
        · exact link?_of_none hnone
      · exact link?_congr (hmoved.elsewhere l hown hother)
  exact content?_eq_some_iff.mpr
    ⟨hmoved.endsInSlash, own, locate_true_of_locate_false hread hlink, hbytes⟩

/-! ## What is elsewhere -/

/-- All other entries are as they were, but for the file that the temporary path leads to. -/
theorem Replaced.kept (h : Replaced path bytes before after) (hown : before.Leads false path own)
    (htemporary : before.Leads false (temporaryPath path) temporary) (hl : l ≠ own)
    (hother : l ≠ temporary) (hnames : ¬ before.Names (temporaryPath path) l) :
    KeptAt path before after l := by
  obtain ⟨made, written, _, _, -, -, hmoved⟩ := h.exists_moved
  obtain rfl := hown.unique hmoved.leads_own
  obtain rfl := htemporary.unique hmoved.leads_temporary
  rw [KeptAt, hmoved.elsewhere l hl hother]
  exact hmoved.touched.kept l hnames

/-- A regular file that is neither at the path nor where the temporary path leads has its bytes. -/
theorem Replaced.bytes?_of_bytes? (h : Replaced path bytes before after)
    (hbytes : before.bytes? l = some content) (hown : ¬ before.Leads false path l)
    (hnames : ¬ before.Names (temporaryPath path) l) : after.bytes? l = some content := by
  obtain ⟨made, written, own, temporary, -, -, hmoved⟩ := h.exists_moved
  have hl : l ≠ own := by
    rintro rfl
    exact hown hmoved.leads_own
  have hother : l ≠ temporary := by
    rintro rfl
    have hlink : before.link? l = none := link?_of_bytes? (by simp [hbytes])
    exact hnames ⟨l, hmoved.leads_temporary.followed hlink, .inl rfl⟩
  have hkept := h.kept hmoved.leads_own hmoved.leads_temporary hl hother hnames
  obtain ⟨number, hat⟩ := bytes?_eq_some_iff.mp hbytes
  rw [bytes?_congr (hkept.eq_of_number? (number?_eq_some_iff.mpr ⟨_, hat⟩)), hbytes]

/-- Where the temporary path was unshared, nothing is left there. -/
theorem Replaced.at?_temporary (h : Replaced path bytes before after)
    (hunshared : before.Unshared (temporaryPath path))
    (htemporary : before.Leads false (temporaryPath path) temporary) :
    after.at? temporary = none := by
  obtain ⟨made, written, own, _, hmade, hwrite, hmoved⟩ := h.exists_moved
  have hleads := hmoved.leads_temporary
  obtain rfl := htemporary.unique hleads
  obtain ⟨number, hat, hnames⟩ :=
    hmade.at?_of_plain hwrite hmoved.locate_temporary hunshared.plain
  refine hmoved.at_temporary.resolve_left ?_
  rintro ⟨hsame, -⟩
  -- The path would be another name of the temporary file.
  have hnumber : written.number? own = some number :=
    number?_eq_some_iff.mpr ⟨_, hsame.trans hat⟩
  have hnamed : before.Names (temporaryPath path) own :=
    ⟨temporary, hleads.followed (hunshared.plain.link?_eq hleads), hnames own hnumber⟩
  exact hmoved.ne ((hunshared.leads_of_names hnamed).unique hleads)

/-- What can be read without the entries at the path and at the temporary one is read as before, if
it is not the file that the temporary path leads to. -/
theorem Replaced.content?_of_without (h : Replaced path bytes before after)
    (hown : before.Leads false path own)
    (htemporary : before.Leads false (temporaryPath path) temporary)
    (hcontent : (before.without own temporary).content? input = some content)
    (hother : ∀ l, before.locate true input = .ok l → ¬ before.Names (temporaryPath path) l) :
    before.content? input = some content ∧ after.content? input = some content := by
  obtain ⟨made, written, _, _, -, -, hmoved⟩ := h.exists_moved
  obtain rfl := hown.unique hmoved.leads_own
  obtain rfl := htemporary.unique hmoved.leads_temporary
  have hpresent {l : Location} (hl : (before.without own temporary).at? l ≠ none) :
      (before.without own temporary).at? l = before.at? l ∧ after.at? l = written.at? l := by
    rw [without, at?_set hmoved.temporary_ne_nil, at?_set hmoved.own_ne_nil] at hl ⊢
    split at hl
    · exact absurd rfl hl
    next hlTemporary =>
    split at hl
    · exact absurd rfl hl
    next hlOwn =>
    rw [if_neg hlTemporary, if_neg hlOwn]
    exact ⟨rfl, hmoved.elsewhere l hlOwn hlTemporary⟩
  obtain ⟨hslash, l, hread, hbytes⟩ := content?_eq_some_iff.mp hcontent
  obtain ⟨number, hat⟩ := bytes?_eq_some_iff.mp hbytes
  obtain ⟨hbeforeAt, hafterAt⟩ := hpresent (l := l) (by simp [hat])
  have hbefore : before.locate true input = .ok l := by
    refine locate_of_entries hread rfl (fun m hm => ?_) (fun m hm => ?_) fun hnone => ?_
    · rw [← (hpresent (by simp [hm])).1, hm]
    · exact link?_congr (hpresent hm).1.symm
    · rw [hat] at hnone
      cases hnone
  have hafter : after.locate true input = .ok l := by
    refine locate_of_entries hread hmoved.workingDirectory (fun m hm => ?_) (fun m hm => ?_)
      fun hnone => ?_
    · obtain ⟨hmBefore, hmAfter⟩ := hpresent (l := m) (by simp [hm])
      exact hmAfter.trans (hmoved.touched.directories m (hmBefore.symm.trans hm))
    · obtain ⟨hmBefore, hmAfter⟩ := hpresent hm
      rw [link?_congr hmAfter, hmoved.touched.links, link?_congr hmBefore]
    · rw [hat] at hnone
      cases hnone
  have hsame : after.at? l = before.at? l := by
    have hnumber := number?_eq_some_iff.mpr ⟨_, hbeforeAt.symm.trans hat⟩
    exact hafterAt.trans ((hmoved.touched.kept l (hother l hbefore)).eq_of_number? hnumber)
  rw [bytes?_congr hbeforeAt] at hbytes
  exact ⟨content?_eq_some_iff.mpr ⟨hslash, l, hbefore, hbytes⟩,
    content?_eq_some_iff.mpr ⟨hslash, l, hafter, (bytes?_congr hsame).trans hbytes⟩⟩

end

end Disk
end FieldMap
