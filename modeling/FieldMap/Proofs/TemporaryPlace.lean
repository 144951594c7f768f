import FieldMap.Proofs.Places
import FieldMap.Saving

/-!
# The place of a temporary file

A file is saved under a temporary name beside its place, and this name is longer than the one that
the path ends in.  So the two places differ, however the path is written and whatever links it leads
through (`Disk.Leads.ne_temporary`).  A path that ends in going up has no name to end in, and its
temporary file lies in the directory that it leads to.  One place is left: a path that ends in a dot
may lead on from a link with its file name to its temporary file, but to nothing else than a directory
(`Disk.Leads.at?_of_temporary`).

A path with a name behind it has one more segment (`Path.segments_join`), and the last segment of a
path is its file name unless it is dots (`Path.fileName?_of_getLast?`).
-/

namespace FieldMap

namespace Path

theorem pieces_append_slash (front : String) {name : String} (hname : '/' ∉ name.toList) :
    (Path.mk (front ++ "/" ++ name)).pieces = (Path.mk front).pieces ++ [name] := by
  have htext : (front ++ "/" ++ name).toList = front.toList ++ '/' :: name.toList := by simp
  rw [pieces_eq, pieces_eq]
  show ((front ++ "/" ++ name).toList.splitOn '/').map String.ofList = _
  rw [htext, List.splitOn_append_cons_self, List.splitOn_eq_singleton hname]
  simp

theorem exists_text_of_endsInSlash {path : Path} (h : path.endsInSlash = true) :
    ∃ front, path = ⟨front ++ "/"⟩ := by
  unfold endsInSlash at h
  obtain ⟨front, hfront⟩ := List.getLast?_eq_some_iff.mp (eq_of_beq h)
  refine ⟨String.ofList front, ?_⟩
  cases path with
  | mk text =>
      rw [Path.mk.injEq, ← String.toList_inj, hfront]
      simp

/-- A name behind a path is one more segment. -/
theorem segments_join (path : Path) {name : String} (hname : '/' ∉ name.toList)
    (hne : name ≠ "") : (path.join name).segments = path.segments ++ [name] := by
  have hslash (front : String) : (Path.mk (front ++ "/" ++ name)).segments =
      (Path.mk front).segments ++ [name] := by
    simp [segments, pieces_append_slash front hname, hne]
  unfold join
  by_cases hempty : path.text = ""
  · have hpieces : (Path.mk name).pieces = [name] := by
      rw [pieces_eq, List.splitOn_eq_singleton hname]
      simp
    have hnone : path.pieces = [""] := by
      rw [pieces_eq, hempty]
      rfl
    simp [hempty, segments, hpieces, hnone, hne]
  · by_cases hends : path.endsInSlash = true
    · -- The slash is there already, and what follows it is replaced by the name.
      obtain ⟨front, rfl⟩ := exists_text_of_endsInSlash hends
      have hfront : (Path.mk (front ++ "/" ++ "")).pieces = (Path.mk front).pieces ++ [""] :=
        pieces_append_slash front (by simp)
      rw [String.append_empty] at hfront
      have hsegments : (Path.mk (front ++ "/")).segments = (Path.mk front).segments := by
        simp [segments, hfront]
      simp only [hempty, hends, decide_false, Bool.false_or, if_true]
      rw [hslash, hsegments]
    · simp only [hempty, hends, decide_false, Bool.false_or]
      exact hslash path.text

/-- A last segment that is no dot is the last part as well. -/
theorem getLast?_parts {path : Path} {name : String} (h : path.segments.getLast? = some name)
    (hdot : name ≠ ".") : path.parts.getLast? = some name := by
  unfold parts
  cases hsegments : path.segments with
  | nil =>
      rw [hsegments] at h
      cases h
  | cons first rest =>
      rw [hsegments] at h
      cases rest with
      | nil =>
          obtain rfl : first = name := by simpa using h
          simp [hdot]
      | cons second more =>
          rw [List.getLast?_cons_cons] at h
          obtain ⟨front, hfront⟩ := List.getLast?_eq_some_iff.mp h
          have hfilter : (second :: more).filter (· ≠ ".") = front.filter (· ≠ ".") ++ [name] := by
            rw [hfront, List.filter_append]
            simp [hdot]
          simp only [hfilter]
          split
          · exact List.getLast?_concat
          · rw [← List.cons_append, List.getLast?_concat]

/-- The name that a path ends in is its file name. -/
theorem fileName?_of_getLast? {path : Path} {name : String}
    (h : path.segments.getLast? = some name) (hdot : name ≠ ".") (hdots : name ≠ "..") :
    path.fileName? = some name := by
  simp [fileName?, getLast?_parts h hdot, hdot, hdots]

/-- The temporary name of a path is the one that it ends in, with an extension. -/
theorem getLast?_segments_temporaryPath {path : Path} {name : String}
    (h : path.segments.getLast? = some name) (hdot : name ≠ ".") (hdots : name ≠ "..") :
    (temporaryPath path).segments.getLast? = some (name ++ ".tmp") := by
  have hname := fileName?_of_getLast? h hdot hdots
  have hpiece : name ∈ path.pieces := (List.mem_filter.mp (List.mem_of_getLast? h)).1
  have hslash : '/' ∉ (name ++ ".tmp").toList := by
    simpa using slash_not_mem_of_mem_pieces hpiece
  have hne : name ++ ".tmp" ≠ "" := by simp
  rw [temporaryPath, hname, Option.getD_some, withFileName, hname]
  simp only
  rw [segments_join _ hslash hne, List.getLast?_concat]

/-- A path without a file name gets one more segment. -/
theorem segments_temporaryPath_of_none {path : Path} (h : path.fileName? = none) :
    (temporaryPath path).segments = path.segments ++ [".tmp"] := by
  rw [temporaryPath, h, withFileName, h]
  exact path.segments_join (by decide) (by decide)

theorem isAbsolute_temporaryPath_of_none {path : Path} (h : path.fileName? = none)
    (hempty : path.text ≠ "") : (temporaryPath path).isAbsolute = path.isAbsolute := by
  have hhead (behind : String) : (path.text ++ behind).toList.head? = path.text.toList.head? := by
    cases htext : path.text.toList with
    | nil => exact absurd (String.toList_eq_nil_iff.mp htext) hempty
    | cons c cs => simp [htext]
  rw [temporaryPath, h, withFileName, h]
  simp only [join, isAbsolute]
  split
  · rw [hhead]
  · rw [String.append_assoc, hhead]

/-- No temporary path means a directory. -/
theorem endsInSlash_temporaryPath (path : Path) : (temporaryPath path).endsInSlash = false := by
  have htext : ∃ front, (temporaryPath path).text = front ++ ".tmp" := by
    have hjoin (above : Path) : ∃ front,
        (above.join (path.fileName?.getD "" ++ ".tmp")).text = front ++ ".tmp" := by
      unfold join
      split
      · exact ⟨_, (String.append_assoc ..).symm⟩
      · exact ⟨_, (String.append_assoc ..).symm⟩
    unfold temporaryPath withFileName
    split
    · exact hjoin _
    · exact hjoin _
  obtain ⟨front, hfront⟩ := htext
  rw [endsInSlash, hfront, String.toList_append, List.getLast?_append]
  rfl

end Path

/-- A temporary file never lies where the path itself leads. -/
theorem Disk.Leads.ne_temporary {disk : Disk} {path : Path} {l t : Location}
    (hpath : disk.Leads false path l) (htemporary : disk.Leads false (temporaryPath path) t)
    (hends : path.endsInDots = false) : l ≠ t := by
  unfold Path.endsInDots at hends
  cases hlast : path.segments.getLast? with
  | none => simp [hlast] at hends
  | some name =>
      simp only [hlast, Bool.or_eq_false_iff, decide_eq_false_iff_not] at hends
      obtain ⟨hdot, hdots⟩ := hends
      have hlonger : (name ++ ".tmp").length = name.length + 4 := String.length_append name ".tmp"
      have hlong (short : String) (hshort : short.length < 4) : name ++ ".tmp" ≠ short := by
        rintro rfl
        omega
      obtain ⟨-, -, -, hway⟩ := locate_eq_ok_iff.mp hpath
      obtain ⟨-, -, -, htemporaryWay⟩ := locate_eq_ok_iff.mp htemporary
      obtain ⟨above, rfl⟩ := hway.exists_eq_append hlast hdot hdots
      obtain ⟨beside, rfl⟩ := htemporaryWay.exists_eq_append
        (Path.getLast?_segments_temporaryPath hlast hdot hdots) (hlong "." (by decide))
        (hlong ".." (by decide))
      intro hsame
      have hname := List.singleton_inj.mp (List.append_inj' hsame rfl).2
      rw [← hname] at hlonger
      omega

theorem Disk.Leads.endsInDots_of_temporary {disk : Disk} {path : Path} {l : Location}
    (hpath : disk.Leads false path l) (htemporary : disk.Leads false (temporaryPath path) l) :
    path.endsInDots = true := by
  by_cases hends : path.endsInDots = true
  · exact hends
  · exact absurd rfl (hpath.ne_temporary htemporary (by simpa using hends))

/-- A path without a file name leads to a directory, and its temporary file lies in it. -/
theorem Disk.Leads.ne_temporary_of_none {disk : Disk} {path : Path} {l t : Location}
    (hpath : disk.Leads false path l) (htemporary : disk.Leads false (temporaryPath path) t)
    (hname : path.fileName? = none) (hlink : disk.link? l = none) : l ≠ t := by
  obtain ⟨-, hempty, -, hway⟩ := locate_eq_ok_iff.mp hpath
  obtain ⟨-, -, -, htemporaryWay⟩ := locate_eq_ok_iff.mp htemporary
  rw [base, Path.isAbsolute_temporaryPath_of_none hname hempty, ← base,
    Path.segments_temporaryPath_of_none hname] at htemporaryWay
  obtain ⟨fewer, hlast⟩ := hway.of_append ((disk.link?_completed l).trans hlink) htemporaryWay
  have hstep : step l ".tmp" = l ++ [".tmp"] := by simp [step]
  rw [hlast.eq_step, hstep]
  intro hsame
  simpa using congrArg List.length hsame

/-- Where a path and its temporary one lead to one place, the path ends in a dot, and nothing is there
but a directory. -/
theorem Disk.Leads.at?_of_temporary {disk : Disk} {path : Path} {l : Location}
    (hpath : disk.Leads false path l) (htemporary : disk.Leads false (temporaryPath path) l)
    (hlink : disk.link? l = none) : disk.at? l = none ∨ disk.at? l = some .directory := by
  have hname : path.fileName? ≠ none := fun hname =>
    hpath.ne_temporary_of_none htemporary hname hlink rfl
  have hends := hpath.endsInDots_of_temporary htemporary
  unfold Path.endsInDots at hends
  cases hlast : path.segments.getLast? with
  | none =>
      have hnil : path.segments = [] := List.getLast?_eq_none_iff.mp hlast
      exact absurd (by simp [Path.fileName?, Path.parts, hnil]) hname
  | some segment =>
      rw [hlast] at hends
      by_cases hdot : segment = "."
      · subst hdot
        obtain ⟨-, -, -, hway⟩ := locate_eq_ok_iff.mp hpath
        have hcompleted := hway.at?_of_dot hlast
        rw [at?_completed, Option.some.injEq] at hcompleted
        cases hat : disk.at? l with
        | none => exact .inl rfl
        | some entry =>
            rw [hat] at hcompleted
            exact .inr (congrArg some hcompleted)
      · have hdots : segment = ".." := by simpa [hdot] using hends
        refine absurd ?_ hname
        simp [Path.fileName?, Path.getLast?_parts hlast hdot, hdots]

end FieldMap
