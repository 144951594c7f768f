import FieldMap.Path

/-!
# The paths above a path

The paths above a path are cut from it as it was written.  A file system that walks along one of
them therefore takes the first steps of the walk along the whole path, and never all of them:
`exists_segments_of_mem_chain` is this statement for all paths above the parent, the parent
included.  It rests on `pieces_intercalate`, since every path above is written again from pieces
of the path below.
-/

namespace FieldMap

namespace Text

/-- No piece holds the separator. -/
theorem not_mem_of_mem_splitOn {α : Type} [BEq α] [LawfulBEq α] {sep : α} {xs piece : List α}
    (h : piece ∈ xs.splitOn sep) : sep ∉ piece := by
  induction xs generalizing piece with
  | nil =>
      rw [List.splitOn_nil, List.mem_singleton] at h
      rw [h]
      exact List.not_mem_nil
  | cons x xs ih =>
      rw [List.splitOn_cons_eq_if_modifyHead] at h
      split at h
      · rcases List.mem_cons.mp h with rfl | h
        · exact List.not_mem_nil
        · exact ih h
      · next hx =>
          -- The first character goes to the first of the pieces of the rest.
          cases hpieces : xs.splitOn sep with
          | nil => exact absurd hpieces (List.splitOn_ne_nil sep xs)
          | cons first rest =>
              rw [hpieces] at h ih
              rcases List.mem_cons.mp h with rfl | h
              · have hfirst := ih List.mem_cons_self
                rw [List.mem_cons, not_or]
                refine ⟨?_, hfirst⟩
                rintro rfl
                exact hx BEq.rfl
              · exact ih (List.mem_cons_of_mem first h)

end Text

namespace Path

theorem pieces_eq (path : Path) :
    path.pieces = (path.text.toList.splitOn '/').map String.ofList := by
  rw [pieces, Text.split_eq_splitOn]

theorem slash_not_mem_of_mem_pieces {path : Path} {piece : String} (h : piece ∈ path.pieces) :
    '/' ∉ piece.toList := by
  rw [pieces_eq] at h
  obtain ⟨chars, hchars, rfl⟩ := List.mem_map.mp h
  rw [String.toList_ofList]
  exact Text.not_mem_of_mem_splitOn hchars

/-- A text that is put together from pieces has these pieces. -/
theorem pieces_intercalate {pieces : List String} (hne : pieces ≠ [])
    (hslash : ∀ piece ∈ pieces, '/' ∉ piece.toList) :
    (Path.mk ("/".intercalate pieces)).pieces = pieces := by
  have htext : ("/".intercalate pieces).toList = ['/'].intercalate (pieces.map String.toList) :=
    String.toList_intercalate
  have hsplit : (['/'].intercalate (pieces.map String.toList)).splitOn '/' =
      pieces.map String.toList := by
    apply List.splitOn_intercalate
    · intro chars hchars
      obtain ⟨piece, hpiece, rfl⟩ := List.mem_map.mp hchars
      exact hslash piece hpiece
    · rwa [ne_eq, List.map_eq_nil_iff]
  rw [pieces_eq]
  show (("/".intercalate pieces).toList.splitOn '/').map String.ofList = pieces
  rw [htext, hsplit, List.map_map]
  simp

/-- A path is what its pieces are put together to. -/
theorem text_eq_intercalate_pieces (path : Path) : path.text = "/".intercalate path.pieces := by
  apply String.toList_inj.mp
  rw [String.toList_intercalate, pieces_eq, List.map_map]
  have hid : String.toList ∘ String.ofList = id := by
    funext chars
    exact String.toList_ofList
  rw [hid, List.map_id]
  exact (List.intercalate_splitOn '/').symm

/-- More pieces behind some pieces do not make a path absolute, unless these are the root alone. -/
theorem isAbsolute_intercalate_append {front : List String} (hne : front ≠ [])
    (hroot : front ≠ [""]) (back : List String) :
    (Path.mk ("/".intercalate (front ++ back))).isAbsolute =
      (Path.mk ("/".intercalate front)).isAbsolute := by
  cases front with
  | nil => exact absurd rfl hne
  | cons first front =>
      have hhead (rest : List String) :
          ("/".intercalate (first :: rest)).toList.head? =
            (first.toList ++ if rest = [] then [] else ['/']).head? := by
        cases rest with
        | nil => simp
        | cons second rest =>
            rw [String.intercalate_cons_cons, if_neg (List.cons_ne_nil second rest)]
            simp [String.toList_append]
      unfold isAbsolute
      simp only [List.cons_append, hhead]
      cases front with
      | nil =>
          -- The only piece is not empty, so its first character decides.
          have hfirst : first.toList ≠ [] := by
            intro h
            rw [String.toList_eq_nil_iff] at h
            exact hroot (by rw [h])
          obtain ⟨c, cs, hchars⟩ := List.exists_cons_of_ne_nil hfirst
          rw [hchars]
          rfl
      | cons second front => simp

theorem dropIdle_suffix (pieces : List String) : dropIdle pieces <:+ pieces := by
  induction pieces with
  | nil => exact List.suffix_refl _
  | cons piece rest ih =>
      cases rest with
      | nil => exact List.suffix_refl _
      | cons before rest =>
          rw [dropIdle]
          split
          · exact ih.trans (List.suffix_cons piece _)
          · exact List.suffix_refl _

theorem dropIdle_ne_nil {pieces : List String} (h : pieces ≠ []) : dropIdle pieces ≠ [] := by
  induction pieces with
  | nil => exact absurd rfl h
  | cons piece rest ih =>
      cases rest with
      | nil => exact List.cons_ne_nil _ _
      | cons before rest =>
          rw [dropIdle]
          split
          · exact ih (List.cons_ne_nil _ _)
          · exact List.cons_ne_nil _ _

/-- What comes first then takes a step, unless it is all there is. -/
theorem isIdle_eq_false_of_dropIdle {pieces before : List String} {piece second : String}
    (h : dropIdle pieces = piece :: second :: before) : isIdle piece = false := by
  induction pieces with
  | nil => cases h
  | cons first rest ih =>
      cases rest with
      | nil => cases h
      | cons next rest =>
          rw [dropIdle] at h
          split at h
          · exact ih h
          · next hidle =>
              cases h
              simpa using hidle

/-- The paths of a chain are put together from the first pieces, at least from those that make a
path by themselves. -/
theorem exists_suffix_of_mem_chainOf {pieces : List String} {path : Path}
    (h : path ∈ chainOf pieces) :
    ∃ suffix, suffix <:+ pieces ∧ suffix ≠ [] ∧ suffix ≠ [""] ∧
      path = ⟨"/".intercalate suffix.reverse⟩ := by
  induction pieces with
  | nil => cases h
  | cons piece rest ih =>
      have hlater (h : path ∈ chainOf rest) : ∃ suffix, suffix <:+ piece :: rest ∧
          suffix ≠ [] ∧ suffix ≠ [""] ∧ path = ⟨"/".intercalate suffix.reverse⟩ := by
        obtain ⟨suffix, hsuffix, hother⟩ := ih h
        exact ⟨suffix, hsuffix.trans (List.suffix_cons piece rest), hother⟩
      cases rest with
      | nil =>
          rw [chainOf] at h
          split at h
          · cases h
          · next hpiece =>
              rw [List.mem_singleton] at h
              exact ⟨[piece], List.suffix_refl _, List.cons_ne_nil _ _, by simpa using hpiece,
                by rw [h]; simp⟩
      | cons before rest =>
          rw [chainOf] at h
          split at h
          · exact hlater h
          · rcases List.mem_cons.mp h with rfl | h
            · exact ⟨piece :: before :: rest, List.suffix_refl _, List.cons_ne_nil _ _, by simp,
                rfl⟩
            · exact hlater h

/-- The paths above a path are put together from its first pieces, and a piece that takes a step
is left out. -/
theorem exists_pieces_of_mem_chain {path parent above : Path} (hparent : path.parent? = some parent)
    (habove : above ∈ parent.chain) :
    ∃ front back, path.pieces = front ++ back ∧ front ≠ [] ∧ front ≠ [""] ∧
      (∃ piece ∈ back, isIdle piece = false) ∧ above = ⟨"/".intercalate front⟩ := by
  unfold parent? at hparent
  split at hparent
  · cases hparent
  · cases hparent
  · cases hparent
    cases habove
  · next name before _ hsecond hpieces =>
      cases before with
      | nil => exact absurd rfl hsecond
      | cons second before =>
      have hname := isIdle_eq_false_of_dropIdle hpieces
      have hall : name :: second :: before <:+ path.pieces.reverse := by
        rw [← hpieces]
        exact dropIdle_suffix _
      split at hparent
      · cases hparent
        cases habove
      · next hroot =>
          cases hparent
          have hdropped : dropIdle (second :: before) <:+ path.pieces.reverse :=
            ((dropIdle_suffix _).trans (List.suffix_cons name _)).trans hall
          have hslash : ∀ piece ∈ (dropIdle (second :: before)).reverse, '/' ∉ piece.toList := by
            intro piece hpiece
            have hmem := hdropped.subset (List.mem_reverse.mp hpiece)
            exact slash_not_mem_of_mem_pieces (List.mem_reverse.mp hmem)
          have hne : (dropIdle (second :: before)).reverse ≠ [] := by
            rw [ne_eq, List.reverse_eq_nil_iff]
            exact dropIdle_ne_nil (List.cons_ne_nil _ _)
          rw [chain, pieces_intercalate hne hslash, List.reverse_reverse] at habove
          obtain ⟨suffix, hsuffix, hsome, hother, rfl⟩ := exists_suffix_of_mem_chainOf habove
          obtain ⟨between, hbetween⟩ := hsuffix.trans (dropIdle_suffix _)
          obtain ⟨behind, hbehind⟩ := hall
          refine ⟨suffix.reverse, between.reverse ++ name :: behind.reverse, ?_, ?_, ?_,
            ⟨name, by simp, hname⟩, rfl⟩
          · rw [← List.reverse_inj, ← hbehind, ← hbetween]
            simp
          · rwa [ne_eq, List.reverse_eq_nil_iff]
          · rwa [ne_eq, List.reverse_eq_iff]

/-- A walk along a path above another one takes the first steps of the walk along that one, from
the same place and not all of them: one that leads elsewhere is left. -/
theorem exists_segments_of_mem_chain {path parent above : Path}
    (hparent : path.parent? = some parent) (habove : above ∈ parent.chain) :
    above.isAbsolute = path.isAbsolute ∧
      ∃ back, (∃ segment ∈ back, segment ≠ ".") ∧ path.segments = above.segments ++ back := by
  obtain ⟨front, back, hpieces, hne, hroot, ⟨piece, hpiece, hidle⟩, rfl⟩ :=
    exists_pieces_of_mem_chain hparent habove
  have hslash : ∀ piece ∈ front, '/' ∉ piece.toList := by
    intro piece hmem
    have hpath : piece ∈ path.pieces := hpieces ▸ List.mem_append_left back hmem
    exact slash_not_mem_of_mem_pieces hpath
  constructor
  · have htext := path.text_eq_intercalate_pieces
    rw [hpieces] at htext
    have habsolute := isAbsolute_intercalate_append hne hroot back
    rw [← htext] at habsolute
    exact habsolute.symm
  · refine ⟨back.filter (· ≠ ""), ⟨piece, ?_, ?_⟩, ?_⟩
    · have hstep : piece ≠ "" := by
        rintro rfl
        cases hidle
      exact List.mem_filter.mpr ⟨hpiece, by simpa using hstep⟩
    · rintro rfl
      cases hidle
    · rw [segments, segments, hpieces, pieces_intercalate hne hslash, List.filter_append]

end Path
end FieldMap
