import FieldMap.Disk

/-!
# Walks along paths

A walk that arrives somewhere is a `Way`: steps from directory to directory, and links that lead
elsewhere, at most so many of them (`walk_eq_ok_iff`).  What is proved about walks is proved by
induction on ways.

* A way rests on the directories and links that it meets, and on nothing else (`Way.of_entries`).
* What lies behind a place on a way is a way of its own (`Way.of_append`).
* A link at the end is followed or not, and the two ways part only there (`Way.followed`,
  `Way.exists_unfollowed`).
* A way to a name of its own ends in this name (`Way.exists_eq_append`), and one to a dot at a
  directory (`Way.at?_of_dot`).
-/

namespace FieldMap

namespace Disk

variable {disk other : Disk} {follow : Bool} {links : Nat} {here location : Location}
  {segment : String} {segments rest : List String} {target : Path}

/-! ## What is at a location -/

theorem at?_nil (disk : Disk) : disk.at? [] = some .directory :=
  if_pos rfl

theorem ne_nil_of_at?_ne (h : disk.at? location ≠ some .directory) : location ≠ [] := by
  rintro rfl
  exact h disk.at?_nil

theorem link?_of_directory (h : disk.at? location = some .directory) :
    disk.link? location = none := by
  rw [link?, h]

theorem link?_of_none (h : disk.at? location = none) : disk.link? location = none := by
  rw [link?, h]

theorem link?_eq_some_iff : disk.link? location = some target ↔
    ∃ number, disk.at? location = some (.inode number (.link target)) := by
  unfold link?
  constructor
  · intro h
    split at h
    · next number found hat =>
        cases h
        exact ⟨number, hat⟩
    · cases h
  · rintro ⟨number, hat⟩
    rw [hat]

theorem number?_eq_some_iff {number : Nat} : disk.number? location = some number ↔
    ∃ inode, disk.at? location = some (.inode number inode) := by
  unfold number?
  constructor
  · intro h
    split at h
    · next found inode hat =>
        cases h
        exact ⟨inode, hat⟩
    · cases h
  · rintro ⟨inode, hat⟩
    rw [hat]

theorem bytes?_eq_some_iff {bytes : List UInt8} : disk.bytes? location = some bytes ↔
    ∃ number, disk.at? location = some (.inode number (.file bytes)) := by
  unfold bytes?
  constructor
  · intro h
    split at h
    · next number found hat =>
        cases h
        exact ⟨number, hat⟩
    · cases h
  · rintro ⟨number, hat⟩
    rw [hat]

/-! ## Ways -/

/-- The segments lead from one location to another, through at most so many links. -/
inductive Way (disk : Disk) (follow : Bool) (location : Location) :
    (links : Nat) → Location → List String → Prop
  | arrived {links : Nat} : Way disk follow location links location []
  | on {links : Nat} {here : Location} {segment : String} {rest : List String}
      (hhere : disk.at? here = some .directory) (hname : segment.utf8ByteSize ≤ longestName)
      (hlink : disk.link? (step here segment) = none)
      (hrest : Way disk follow location links (step here segment) rest) :
      Way disk follow location links here (segment :: rest)
  | stay {links : Nat} {here : Location} {segment : String} {target : Path}
      (hhere : disk.at? here = some .directory) (hname : segment.utf8ByteSize ≤ longestName)
      (hlink : disk.link? (step here segment) = some target) (hfollow : follow = false)
      (hlocation : location = step here segment) :
      Way disk follow location links here [segment]
  | through {links : Nat} {here : Location} {segment : String} {rest : List String}
      {target : Path}
      (hhere : disk.at? here = some .directory) (hname : segment.utf8ByteSize ≤ longestName)
      (hlink : disk.link? (step here segment) = some target)
      (hmore : ¬ (rest = [] ∧ follow = false)) (htarget : target.text ≠ "")
      (hbeyond : Way disk follow location links (if target.isAbsolute then [] else here)
        (target.steps ++ rest)) :
      Way disk follow location (links + 1) here (segment :: rest)

/-- The way of a walk, if those beyond its links are known. -/
theorem Way.of_walkOn {beyond : Location → List String → Except OsError Location}
    (hbeyond : ∀ start steps, beyond start steps = .ok location →
      ∃ fewer, links = fewer + 1 ∧ Way disk follow location fewer start steps)
    (h : disk.walkOn follow beyond here segments = .ok location) :
    Way disk follow location links here segments := by
  induction segments generalizing here with
  | nil =>
      cases h
      exact .arrived
  | cons segment rest ih =>
      rw [walkOn] at h
      split at h
      · cases h
      · cases h
      next hhere =>
      split at h
      · cases h
      next hlong =>
      have hname := Nat.not_lt.mp hlong
      split at h
      · next hlink => exact .on hhere hname hlink (ih h)
      next target hlink =>
      split at h
      · next hlast =>
          obtain ⟨rfl, hfollow⟩ := hlast
          cases h
          exact .stay hhere hname hlink hfollow rfl
      next hmore =>
      split at h
      · cases h
      next htarget =>
      obtain ⟨fewer, rfl, hway⟩ := hbeyond _ _ h
      exact .through hhere hname hlink hmore htarget hway

theorem Way.of_walk (h : disk.walk follow links here segments = .ok location) :
    Way disk follow location links here segments := by
  induction links generalizing here segments with
  | zero =>
      refine of_walkOn (fun _ _ hbeyond => ?_) h
      cases hbeyond
  | succ links ih => exact of_walkOn (fun _ _ hbeyond => ⟨links, rfl, ih hbeyond⟩) h

theorem walk_succ (disk : Disk) (follow : Bool) (links : Nat) :
    disk.walk follow (links + 1) = disk.walkOn follow (disk.walk follow links) :=
  rfl

/-- All walks take a first step in the same way. -/
theorem exists_walk_eq_walkOn (disk : Disk) (follow : Bool) (links : Nat) :
    ∃ beyond, disk.walk follow links = disk.walkOn follow beyond := by
  cases links with
  | zero => exact ⟨_, rfl⟩
  | succ links => exact ⟨_, rfl⟩

theorem Way.walk_eq (h : Way disk follow location links here segments) :
    disk.walk follow links here segments = .ok location := by
  induction h with
  | @arrived links =>
      obtain ⟨beyond, hwalk⟩ := disk.exists_walk_eq_walkOn follow links
      rw [hwalk]
      rfl
  | @on links here segment rest hhere hname hlink _ ih =>
      obtain ⟨beyond, hwalk⟩ := disk.exists_walk_eq_walkOn follow links
      rw [hwalk] at ih ⊢
      simp [walkOn, hhere, Nat.not_lt.mpr hname, hlink, ih]
  | @stay links here segment target hhere hname hlink hfollow hlocation =>
      obtain ⟨beyond, hwalk⟩ := disk.exists_walk_eq_walkOn follow links
      rw [hwalk]
      simp [walkOn, hhere, Nat.not_lt.mpr hname, hlink, hfollow, hlocation]
  | through hhere hname hlink hmore htarget _ ih =>
      rw [walk_succ, walkOn, hhere]
      simp only [if_neg (Nat.not_lt.mpr hname), hlink, if_neg hmore, if_neg htarget, ih]

theorem walk_eq_ok_iff : disk.walk follow links here segments = .ok location ↔
    Way disk follow location links here segments :=
  ⟨Way.of_walk, Way.walk_eq⟩

/-- A way is there on every disk with the directories and links that it meets. -/
theorem Way.of_entries (h : Way disk follow location links here segments)
    (hdirectories : ∀ l, disk.at? l = some .directory → other.at? l = some .directory)
    (hlinks : ∀ l, disk.at? l ≠ none → other.link? l = disk.link? l)
    (hlast : disk.at? location = none → other.link? location = none) :
    Way other follow location links here segments := by
  -- What a link is at is there, and so is every place that the way goes on from.
  have hsame {l : Location} {target : Path} (hl : disk.link? l = some target) :
      other.link? l = some target := by
    rw [hlinks, hl]
    intro hnone
    rw [link?_of_none hnone] at hl
    cases hl
  induction h with
  | arrived => exact .arrived
  | @on links here segment rest hhere hname hlink hrest ih =>
      refine .on (hdirectories _ hhere) hname ?_ ih
      by_cases hnone : disk.at? (step here segment) = none
      · cases hrest with
        | arrived => exact hlast hnone
        | on hnext | stay hnext | through hnext =>
            rw [hnone] at hnext
            cases hnext
      · rw [hlinks _ hnone, hlink]
  | stay hhere hname hlink hfollow hlocation =>
      exact .stay (hdirectories _ hhere) hname (hsame hlink) hfollow hlocation
  | through hhere hname hlink hmore htarget _ ih =>
      exact .through (hdirectories _ hhere) hname (hsame hlink) hmore htarget ih

theorem Way.of_cons (h : Way disk follow location links here (segment :: rest))
    (hlink : disk.link? (step here segment) = none) :
    Way disk follow location links (step here segment) rest := by
  cases h with
  | on _ _ _ hrest => exact hrest
  | stay _ _ hother | through _ _ hother =>
      rw [hlink] at hother
      cases hother

theorem Way.of_link (h : Way disk follow location links here (segment :: rest))
    (hlink : disk.link? (step here segment) = some target) (hmore : rest ≠ []) :
    ∃ fewer, links = fewer + 1 ∧ Way disk follow location fewer
      (if target.isAbsolute then [] else here) (target.steps ++ rest) := by
  cases h with
  | on _ _ hother =>
      rw [hlink] at hother
      cases hother
  | stay => exact absurd rfl hmore
  | @through fewer _ _ _ _ _ _ hother _ _ hbeyond =>
      cases hlink.symm.trans hother
      exact ⟨fewer, rfl, hbeyond⟩

/-- A way that ends at no link goes on with the segments behind it. -/
theorem Way.of_append {between : Location} {behind : List String}
    (hfront : Way disk false between links here segments) (hbetween : disk.link? between = none)
    (h : Way disk follow location links here (segments ++ behind)) :
    ∃ fewer, Way disk follow location fewer between behind := by
  induction hfront with
  | @arrived links => exact ⟨links, h⟩
  | on _ _ hlink _ ih => exact ih (h.of_cons hlink)
  | stay _ _ hlink _ hlocation =>
      rw [hlocation, hlink] at hbetween
      cases hbetween
  | @through _ _ _ rest _ _ _ hlink hmore _ _ ih =>
      have hrest : rest ++ behind ≠ [] := by
        rintro hnil
        exact hmore ⟨(List.append_eq_nil_iff.mp hnil).1, rfl⟩
      rw [List.cons_append] at h
      obtain ⟨fewer, hfewer, hbeyond⟩ := h.of_link hlink hrest
      cases hfewer
      rw [← List.append_assoc] at hbeyond
      exact ih hbeyond

/-- Where no link is at the end, it makes no difference whether it is followed. -/
theorem Way.followed (h : Way disk false location links here segments)
    (hlast : disk.link? location = none) : Way disk true location links here segments := by
  induction h with
  | arrived => exact .arrived
  | on hhere hname hlink _ ih => exact .on hhere hname hlink ih
  | stay _ _ hlink _ hlocation =>
      rw [hlocation, hlink] at hlast
      cases hlast
  | through hhere hname hlink _ htarget _ ih =>
      exact .through hhere hname hlink (by simp) htarget ih

/-- A way that follows a link at its end comes past this link, if there is one. -/
theorem Way.exists_unfollowed (h : Way disk true location links here segments) :
    ∃ own, Way disk false own links here segments ∧
      (own = location ∨ disk.link? own ≠ none) := by
  induction h with
  | arrived => exact ⟨_, .arrived, .inl rfl⟩
  | on hhere hname hlink _ ih =>
      obtain ⟨own, hown, hsame⟩ := ih
      exact ⟨own, .on hhere hname hlink hown, hsame⟩
  | stay _ _ _ hfollow => cases hfollow
  | @through links here segment rest target hhere hname hlink _ htarget _ ih =>
      by_cases hlast : rest = []
      · subst hlast
        refine ⟨step here segment, .stay hhere hname hlink rfl rfl, .inr ?_⟩
        simp [hlink]
      · obtain ⟨own, hown, hsame⟩ := ih
        exact ⟨own, .through hhere hname hlink (by simp [hlast]) htarget hown, hsame⟩

theorem getLast?_append_of_cons {first segment : String} {front rest : List String}
    (h : (first :: rest).getLast? = some segment) (hrest : rest ≠ []) :
    (front ++ rest).getLast? = some segment := by
  obtain ⟨second, more, rfl⟩ := List.exists_cons_of_ne_nil hrest
  rw [List.getLast?_cons_cons] at h
  rw [List.getLast?_append, h]
  rfl

/-- A way to a name that is no dots ends in this name. -/
theorem Way.exists_eq_append (h : Way disk false location links here segments)
    (hlast : segments.getLast? = some segment) (hdot : segment ≠ ".") (hdots : segment ≠ "..") :
    ∃ above, location = above ++ [segment] := by
  have hname (here : Location) : step here segment = here ++ [segment] := by
    simp [step, hdot, hdots]
  induction h with
  | arrived => cases hlast
  | @on links here first rest hhere _ _ hrest ih =>
      cases rest with
      | nil =>
          cases hlast
          cases hrest
          exact ⟨here, hname here⟩
      | cons second rest => exact ih hlast
  | @stay _ here first _ _ _ _ _ hlocation =>
      cases hlast
      exact ⟨here, hlocation.trans (hname here)⟩
  | @through links here first rest target _ _ _ hmore _ _ ih =>
      cases rest with
      | nil => simp at hmore
      | cons second rest => exact ih (getLast?_append_of_cons hlast (List.cons_ne_nil _ _))

/-- A way that ends in a dot ends at a directory. -/
theorem Way.at?_of_dot (h : Way disk follow location links here segments)
    (hlast : segments.getLast? = some ".") : disk.at? location = some .directory := by
  have hstays (here : Location) : step here "." = here := by simp [step]
  have hnoLink {here : Location} {target : Path} (hhere : disk.at? here = some .directory)
      (hlink : disk.link? (step here ".") = some target) : False := by
    rw [hstays, link?, hhere] at hlink
    cases hlink
  induction h with
  | arrived => cases hlast
  | @on links here first rest hhere _ _ hrest ih =>
      cases rest with
      | nil =>
          cases hlast
          cases hrest
          rw [hstays, hhere]
      | cons second rest => exact ih hlast
  | stay hhere _ hlink =>
      cases hlast
      exact (hnoLink hhere hlink).elim
  | @through links here first rest target hhere _ hlink _ _ _ ih =>
      cases rest with
      | nil =>
          cases hlast
          exact (hnoLink hhere hlink).elim
      | cons second rest => exact ih (getLast?_append_of_cons hlast (List.cons_ne_nil _ _))

theorem Way.eq_step (h : Way disk false location links here [segment]) :
    location = step here segment := by
  cases h with
  | on _ _ _ hrest =>
      cases hrest
      rfl
  | stay _ _ _ _ hlocation => exact hlocation
  | through _ _ _ hmore => exact absurd ⟨rfl, rfl⟩ hmore

/-! ## Paths -/

section
variable {path : Path} {bytes : List UInt8}

theorem locate_eq_ok_iff : disk.locate follow path = .ok location ↔
    path.holdsNul = false ∧ path.text ≠ "" ∧ path.text.utf8ByteSize ≤ longestPath ∧
      Way disk follow location mostLinks (disk.base path) path.segments := by
  unfold locate
  split
  · next hnul => simp [hnul]
  next hnul =>
  split
  · next hempty => simp [hempty]
  next hempty =>
  split
  · next hlong => simp [Nat.not_le.mpr hlong]
  next hlong =>
  simp [hnul, hempty, Nat.not_lt.mp hlong, walk_eq_ok_iff]

theorem base_congr (h : other.workingDirectory = disk.workingDirectory) (path : Path) :
    other.base path = disk.base path := by
  rw [base, base, h]

/-- A path leads to the same location on every disk with the directories and links that it meets. -/
theorem locate_of_entries (h : disk.locate follow path = .ok location)
    (hworking : other.workingDirectory = disk.workingDirectory)
    (hdirectories : ∀ l, disk.at? l = some .directory → other.at? l = some .directory)
    (hlinks : ∀ l, disk.at? l ≠ none → other.link? l = disk.link? l)
    (hlast : disk.at? location = none → other.link? location = none) :
    other.locate follow path = .ok location := by
  rw [locate_eq_ok_iff] at h ⊢
  obtain ⟨hnul, hempty, hlong, hway⟩ := h
  rw [base_congr hworking]
  exact ⟨hnul, hempty, hlong, hway.of_entries hdirectories hlinks hlast⟩

theorem locate_true_of_locate_false (h : disk.locate false path = .ok location)
    (hlast : disk.link? location = none) : disk.locate true path = .ok location := by
  rw [locate_eq_ok_iff] at h ⊢
  obtain ⟨hnul, hempty, hlong, hway⟩ := h
  exact ⟨hnul, hempty, hlong, hway.followed hlast⟩

theorem exists_locate_false (h : disk.locate true path = .ok location) :
    ∃ own, disk.locate false path = .ok own ∧ (own = location ∨ disk.link? own ≠ none) := by
  obtain ⟨hnul, hempty, hlong, hway⟩ := locate_eq_ok_iff.mp h
  obtain ⟨own, hown, hsame⟩ := hway.exists_unfollowed
  exact ⟨own, locate_eq_ok_iff.mpr ⟨hnul, hempty, hlong, hown⟩, hsame⟩

theorem content?_eq_some_iff : disk.content? path = some bytes ↔
    path.endsInSlash = false ∧ ∃ l, disk.locate true path = .ok l ∧ disk.bytes? l = some bytes := by
  unfold content?
  cases hlocate : disk.locate true path with
  | error e => simp
  | ok l => cases hslash : path.endsInSlash <;> simp

end

end Disk
end FieldMap
