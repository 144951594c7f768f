import FieldMap.Mapping.Listing
import FieldMap.Proofs.ForestNodes
import FieldMap.Proofs.ListedLines

/-!
# The lines of a mapping

A mapping is listed for people to read, but nothing is lost in its listing: as long as no name
holds the end of a line, different mappings have different listings.

* `append_inj_of_stops`: a run of items of one class is told from what follows it.  So the blanks
  in front of a line are told from its mark, an index from the name behind it, and the lines of
  sizes from those below them.
* `leafLine_inj` and `openLine_inj`: the line of a property shows its index and its name, an
  absent name being told from an empty one.  What a name looks like does not matter, since
  nothing that could be a part of it stands before it.
* `lines_append_inj`: from the lines of properties the properties come back one by one.  The
  properties below one are over where a line closes it, and no line of a property is such a line.
-/

namespace FieldMap

/-- A longest run of items of one class is told from the rest. -/
theorem append_inj_of_stops {α : Type} {p : α → Bool} {run run' rest rest' : List α}
    (h : run ++ rest = run' ++ rest') (hrun : ∀ a ∈ run, p a = true)
    (hrun' : ∀ a ∈ run', p a = true) (hrest : ∀ a ∈ rest.head?, p a = false)
    (hrest' : ∀ a ∈ rest'.head?, p a = false) : run = run' ∧ rest = rest' := by
  have hnone {stop : List α} (hstop : ∀ a ∈ stop.head?, p a = false) : stop.takeWhile p = [] := by
    cases stop with
    | nil => rfl
    | cons a stop => exact List.takeWhile_cons_of_neg (by simp [hstop a rfl])
  have htake := congrArg (List.takeWhile p) h
  rw [List.takeWhile_append_of_pos hrun, List.takeWhile_append_of_pos hrun', hnone hrest,
    hnone hrest', List.append_nil, List.append_nil] at htake
  subst htake
  exact ⟨rfl, List.append_cancel_left h⟩

/-- A number is told from what follows it, if this does not begin with a digit. -/
theorem Text.toDigits_append_inj {m n : Nat} {rest rest' : List Char}
    (h : Nat.toDigits 10 m ++ rest = Nat.toDigits 10 n ++ rest')
    (hrest : ∀ c ∈ rest.head?, c.isDigit = false)
    (hrest' : ∀ c ∈ rest'.head?, c.isDigit = false) : m = n ∧ rest = rest' := by
  obtain ⟨hdigits, hrest⟩ := append_inj_of_stops h (fun _ => Text.isDigit_of_mem_toDigits)
    (fun _ => Text.isDigit_of_mem_toDigits) hrest hrest'
  have hnumber := Text.asciiNumber?_toDigits m
  rw [hdigits, Text.asciiNumber?_toDigits] at hnumber
  exact ⟨(Option.some.inj hnumber).symm, hrest⟩

namespace Forest

/-! ## One line -/

/-- The characters of a name behind a space, or none. -/
def labelText : Option String → List Char
  | some name => ' ' :: name.toList
  | none => []

section
variable (depth : Nat) (index : UInt16) (name : Option String)

theorem toList_indentation : (indentation depth).toList = List.replicate (2 * depth) ' ' :=
  String.toList_ofList

theorem toList_label : (label name).toList = labelText name := by
  cases name with
  | none => rfl
  | some name => exact String.toList_append

theorem toList_index : (toString index.toNat).toList = Nat.toDigits 10 index.toNat :=
  Nat.toList_repr

theorem toList_leafLine :
    (leafLine depth index name).toList = List.replicate (2 * depth) ' ' ++
      'l' :: (['e', 'a', 'f', ' ', '#'] ++ (Nat.toDigits 10 index.toNat ++ labelText name)) := by
  simp only [leafLine, String.toList_append, toList_indentation, toList_index, toList_label,
    List.append_assoc]
  rfl

theorem toList_openLine :
    (openLine depth index name).toList = List.replicate (2 * depth) ' ' ++
      's' :: (['t', 'r', 'u', 'c', 't', ' ', '@'] ++
        (Nat.toDigits 10 index.toNat ++ (labelText name ++ [' ', '\x7b']))) := by
  simp only [openLine, String.toList_append, toList_indentation, toList_index, toList_label,
    List.append_assoc]
  rfl

theorem toList_closeLine :
    (closeLine depth).toList = List.replicate (2 * depth) ' ' ++ ['\x7d'] := by
  simp only [closeLine, String.toList_append, toList_indentation]
  rfl

end

/-- The mark of a line is the first character that is not blank. -/
theorem mark_inj {depth depth' : Nat} {mark mark' : Char} {rest rest' : List Char}
    (h : List.replicate depth ' ' ++ mark :: rest = List.replicate depth' ' ' ++ mark' :: rest')
    (hmark : mark ≠ ' ') (hmark' : mark' ≠ ' ') : mark = mark' ∧ rest = rest' := by
  have hblank (n : Nat) : ∀ c ∈ List.replicate n ' ', (c == ' ') = true := by
    intro c hc
    rw [List.eq_of_mem_replicate hc]
    rfl
  have hstop {first : Char} {behind : List Char} (hfirst : first ≠ ' ') :
      ∀ c ∈ (first :: behind).head?, (c == ' ') = false := by
    rintro c ⟨⟩
    exact beq_eq_false_iff_ne.mpr hfirst
  have hparts := append_inj_of_stops (p := (· == ' ')) h (hblank _) (hblank _) (hstop hmark)
    (hstop hmark')
  exact List.cons.inj hparts.2

section
variable {depth depth' : Nat} {index index' : UInt16} {name name' : Option String}

theorem labelText_inj (h : labelText name = labelText name') : name = name' := by
  cases name with
  | none => cases name' with
    | none => rfl
    | some _ => cases h
  | some name => cases name' with
    | none => cases h
    | some name' => rw [String.toList_injective (List.cons.inj h).2]

/-- A name does not go on with the digits of the index before it. -/
theorem isDigit_head?_labelText {rest : List Char} (hrest : ∀ c ∈ rest.head?, c.isDigit = false) :
    ∀ c ∈ (labelText name ++ rest).head?, c.isDigit = false := by
  cases name with
  | none => exact hrest
  | some name =>
      rintro c ⟨⟩
      rfl

/-- The index and the name of a property stand behind its mark, with the same text after them. -/
theorem index_label_inj {rest : List Char} (hrest : ∀ c ∈ rest.head?, c.isDigit = false)
    (h : Nat.toDigits 10 index.toNat ++ (labelText name ++ rest) =
      Nat.toDigits 10 index'.toNat ++ (labelText name' ++ rest)) :
    index = index' ∧ name = name' := by
  obtain ⟨hindex, hlabel⟩ := Text.toDigits_append_inj h (isDigit_head?_labelText hrest)
    (isDigit_head?_labelText hrest)
  exact ⟨UInt16.toNat_inj.mp hindex, labelText_inj (List.append_cancel_right hlabel)⟩

theorem leafLine_inj (h : leafLine depth index name = leafLine depth' index' name') :
    index = index' ∧ name = name' := by
  have hlines := congrArg String.toList h
  rw [toList_leafLine, toList_leafLine] at hlines
  have hrest : Nat.toDigits 10 index.toNat ++ (labelText name ++ []) =
      Nat.toDigits 10 index'.toNat ++ (labelText name' ++ []) := by
    simpa only [List.append_nil] using
      List.append_cancel_left (mark_inj hlines (by decide) (by decide)).2
  refine index_label_inj ?_ hrest
  exact nofun

theorem openLine_inj (h : openLine depth index name = openLine depth' index' name') :
    index = index' ∧ name = name' := by
  have hlines := congrArg String.toList h
  rw [toList_openLine, toList_openLine] at hlines
  refine index_label_inj ?_ (List.append_cancel_left (mark_inj hlines (by decide) (by decide)).2)
  rintro c ⟨⟩
  rfl

theorem leafLine_ne_openLine : leafLine depth index name ≠ openLine depth' index' name' := by
  intro h
  have hlines := congrArg String.toList h
  rw [toList_leafLine, toList_openLine] at hlines
  exact absurd (mark_inj hlines (by decide) (by decide)).1 (by decide)

theorem closeLine_ne_leafLine : closeLine depth ≠ leafLine depth' index name := by
  intro h
  have hlines := congrArg String.toList h
  rw [toList_closeLine, toList_leafLine] at hlines
  exact absurd (mark_inj hlines (by decide) (by decide)).1 (by decide)

theorem closeLine_ne_openLine : closeLine depth ≠ openLine depth' index name := by
  intro h
  have hlines := congrArg String.toList h
  rw [toList_closeLine, toList_openLine] at hlines
  exact absurd (mark_inj hlines (by decide) (by decide)).1 (by decide)

end

/-! ## Lines of properties -/

/-- No further property follows: the lines are over, or one is closed. -/
def Closed (rest : List String) : Prop :=
  ∀ line ∈ rest.head?, ∃ depth, line = closeLine depth

theorem closed_nil : Closed [] :=
  nofun

theorem closed_cons (depth : Nat) (rest : List String) : Closed (closeLine depth :: rest) := by
  rintro line ⟨⟩
  exact ⟨depth, rfl⟩

section
variable {depth : Nat} {index index' : UInt16} {name name' : Option String}
  {children children' siblings : Forest} {rest : List String}

theorem lines_leaf_append :
    (cons index name nil siblings).lines depth ++ rest =
      leafLine depth index name :: (siblings.lines depth ++ rest) := by
  rw [lines_cons]
  rfl

theorem lines_interior_append (h : children ≠ nil) :
    (cons index name children siblings).lines depth ++ rest =
      openLine depth index name :: (children.lines (depth + 1) ++
        closeLine depth :: (siblings.lines depth ++ rest)) := by
  rw [lines_cons, isEmpty_eq_false_iff.mpr h]
  simp

/-- What is over begins with no property. -/
theorem lines_cons_ne_of_closed {more : List String} (h : Closed rest) :
    (cons index name children siblings).lines depth ++ more ≠ rest := by
  rintro rfl
  by_cases hchildren : children = nil
  · subst hchildren
    rw [lines_leaf_append] at h
    obtain ⟨closed, hline⟩ := h _ rfl
    exact closeLine_ne_leafLine hline.symm
  · rw [lines_interior_append hchildren] at h
    obtain ⟨closed, hline⟩ := h _ rfl
    exact closeLine_ne_openLine hline.symm

end

/-- Properties come back from their lines, and so do the lines behind them. -/
theorem lines_append_inj {f g : Forest} {depth : Nat} {rest rest' : List String}
    (hrest : Closed rest) (hrest' : Closed rest')
    (h : f.lines depth ++ rest = g.lines depth ++ rest') : f = g ∧ rest = rest' := by
  induction f generalizing g depth rest rest' with
  | nil =>
      cases g with
      | nil => exact ⟨rfl, h⟩
      | cons index name children siblings =>
          exact absurd h.symm (lines_cons_ne_of_closed hrest)
  | cons index name children siblings ihchildren ihsiblings =>
      cases g with
      | nil => exact absurd h (lines_cons_ne_of_closed hrest')
      | cons index' name' children' siblings' =>
          by_cases hleaf : children = nil <;> by_cases hleaf' : children' = nil
          · subst hleaf hleaf'
            rw [lines_leaf_append, lines_leaf_append] at h
            obtain ⟨hline, hlines⟩ := List.cons.inj h
            obtain ⟨rfl, rfl⟩ := leafLine_inj hline
            obtain ⟨rfl, hrest⟩ := ihsiblings hrest hrest' hlines
            exact ⟨rfl, hrest⟩
          · subst hleaf
            rw [lines_leaf_append, lines_interior_append hleaf'] at h
            exact absurd (List.cons.inj h).1 leafLine_ne_openLine
          · subst hleaf'
            rw [lines_leaf_append, lines_interior_append hleaf] at h
            exact absurd (List.cons.inj h).1.symm leafLine_ne_openLine
          · -- The lines below are over where the property is closed.
            rw [lines_interior_append hleaf, lines_interior_append hleaf'] at h
            obtain ⟨hline, hlines⟩ := List.cons.inj h
            obtain ⟨rfl, rfl⟩ := openLine_inj hline
            obtain ⟨rfl, hbehind⟩ := ihchildren (closed_cons _ _) (closed_cons _ _) hlines
            obtain ⟨rfl, hrest⟩ := ihsiblings hrest hrest' (List.cons.inj hbehind).2
            exact ⟨rfl, hrest⟩

/-- No name in the forest holds the end of a line. -/
def NamesInLines (f : Forest) : Prop :=
  ∀ node ∈ f, ∀ name ∈ node.name, '\n' ∉ name.toList

/-- Every line of the properties is one line, if the names are. -/
theorem newline_not_mem_lines {f : Forest} (hnames : f.NamesInLines) (depth : Nat) :
    ∀ line ∈ f.lines depth, '\n' ∉ line.toList := by
  have hblanks (n : Nat) : '\n' ∉ List.replicate n ' ' := by
    intro hmem
    exact absurd (List.eq_of_mem_replicate hmem) (by decide)
  induction f generalizing depth with
  | nil => exact nofun
  | cons index name children siblings ihchildren ihsiblings =>
      obtain ⟨hname, hchildren, hsiblings⟩ := forall_mem_cons.mp hnames
      have hlabel : '\n' ∉ labelText name := by
        cases name with
        | none => exact List.not_mem_nil
        | some name => simpa [labelText] using hname name rfl
      have hindex := Schema.newline_not_mem_toDigits index.toNat
      rw [lines_cons]
      refine List.forall_mem_append.mpr ⟨?_, ihsiblings hsiblings depth⟩
      split
      · refine List.forall_mem_singleton.mpr ?_
        rw [toList_leafLine]
        simp [hindex, hlabel]
      · refine List.forall_mem_cons.mpr ⟨?_, List.forall_mem_append.mpr
          ⟨ihchildren hchildren (depth + 1), List.forall_mem_singleton.mpr ?_⟩⟩
        · rw [toList_openLine]
          simp [hindex, hlabel]
        · rw [toList_closeLine]
          simp

end Forest

namespace Mapping

/-! ## The size table -/

theorem toList_sizeLine (entry : UInt8 × Nat) :
    (sizeLine entry).toList = [' ', ' ', '['] ++
      (Nat.toDigits 10 entry.2 ++ ([']', ' '] ++ Nat.toDigits 10 entry.1.toNat)) := by
  show ("  [" ++ entry.2.repr ++ "] " ++ entry.1.toNat.repr).toList = _
  simp only [String.toList_append, Nat.toList_repr, List.append_assoc]
  rfl

theorem sizeLine_injective : Function.Injective sizeLine := by
  intro entry entry' h
  have hlines := congrArg String.toList h
  rw [toList_sizeLine, toList_sizeLine] at hlines
  have hbracket {rest : List Char} : ∀ c ∈ ([']', ' '] ++ rest).head?, c.isDigit = false := by
    rintro c ⟨⟩
    rfl
  obtain ⟨hindex, hsize⟩ := Text.toDigits_append_inj (List.append_cancel_left hlines) hbracket
    hbracket
  have hsize := congrArg Text.asciiNumber? (List.append_cancel_left hsize)
  rw [Text.asciiNumber?_toDigits, Text.asciiNumber?_toDigits] at hsize
  exact Prod.ext (UInt8.toNat_inj.mp (Option.some.inj hsize)) hindex

theorem sizeLine_ne_empty (entry : UInt8 × Nat) : sizeLine entry ≠ "" := by
  intro h
  have hlines := congrArg String.toList h
  rw [toList_sizeLine] at hlines
  cases hlines

/-! ## The listing -/

/-- A mapping comes back from the lines of its listing. -/
theorem listing_injective : Function.Injective listing := by
  intro m n h
  have hsizeLines (m : Mapping) : ∀ line ∈ m.sizes.zipIdx.map sizeLine, (line != "") = true := by
    intro line hline
    obtain ⟨entry, -, rfl⟩ := List.mem_map.mp hline
    exact bne_iff_ne.mpr (sizeLine_ne_empty entry)
  have hgap {rest : List String} : ∀ line ∈ ("" :: rest).head?, (line != "") = false := by
    rintro line ⟨⟩
    rfl
  -- The empty line stands between the sizes and the properties.
  obtain ⟨hsizes, hrest⟩ := append_inj_of_stops (p := (· != "")) (List.cons.inj h).2
    (hsizeLines m) (hsizeLines n) hgap hgap
  have hzip := (List.map_injective_iff.mpr sizeLine_injective) hsizes
  have hsizes : m.sizes = n.sizes := by
    rw [← List.zipIdx_map_fst 0 m.sizes, hzip, List.zipIdx_map_fst]
  have hproperties : m.properties.lines 1 ++ [] = n.properties.lines 1 ++ [] :=
    congrArg (· ++ []) (List.cons.inj (List.cons.inj hrest).2).2
  obtain ⟨hforest, -⟩ := Forest.lines_append_inj Forest.closed_nil Forest.closed_nil hproperties
  exact congrArg₂ Mapping.mk hsizes hforest

theorem toList_render (m : Mapping) :
    m.render.toList = (m.listing.map String.toList).flatMap (· ++ ['\n']) := by
  rw [render, Schema.toList_foldl_append, List.flatMap_map]
  rfl

/-- Every line of a listing is one line, if the names are. -/
theorem newline_not_mem_listing {m : Mapping} (hnames : m.properties.NamesInLines) :
    ∀ line ∈ m.listing.map String.toList, '\n' ∉ line := by
  have hdigits := Schema.newline_not_mem_toDigits
  rw [List.forall_mem_map, listing, List.forall_mem_cons, List.forall_mem_append,
    List.forall_mem_map, List.forall_mem_cons, List.forall_mem_cons]
  refine ⟨?_, fun entry _ => ?_, by decide, by decide, ?_⟩
  · show '\n' ∉ ("Sizes (" ++ m.sizes.length.repr ++ " entries, " ++ m.totalSize.repr ++
      " bytes):").toList
    simp [hdigits]
  · rw [toList_sizeLine]
    simp [hdigits]
  · exact Forest.newline_not_mem_lines hnames 1

/-- Two mappings whose names fit on lines are listed alike only if they are the same mapping. -/
theorem render_eq_iff {m n : Mapping} (hm : m.properties.NamesInLines)
    (hn : n.properties.NamesInLines) : m.render = n.render ↔ m = n := by
  constructor
  · intro h
    have htext := congrArg String.toList h
    rw [toList_render, toList_render] at htext
    have hlines := congrArg (Text.lines '\n') htext
    rw [Text.lines_flatMap (newline_not_mem_listing hm),
      Text.lines_flatMap (newline_not_mem_listing hn)] at hlines
    exact listing_injective (List.map_injective_iff.mpr (fun _ _ => String.toList_injective) hlines)
  · rintro rfl
    rfl

/-- A mapping with names that look like parts of other lines, one of them empty. -/
def disguisedMapping : Mapping where
  sizes := [1, 2]
  properties := .ofNodes
    [⟨0, some "top \x7b", .ofNodes [⟨0, some "", .nil⟩]⟩, ⟨1, some "\x7d leaf #0", .nil⟩]

/-- The same mapping without the empty name. -/
def halfNamedMapping : Mapping where
  sizes := [1, 2]
  properties := .ofNodes
    [⟨0, some "top \x7b", .ofNodes [⟨0, none, .nil⟩]⟩, ⟨1, some "\x7d leaf #0", .nil⟩]

/-- An empty name makes a difference to the listing. -/
theorem disguisedMapping_render_ne : disguisedMapping.properties.NamesInLines ∧
    halfNamedMapping.properties.NamesInLines ∧
    disguisedMapping.render ≠ halfNamedMapping.render := by
  have hnames : disguisedMapping.properties.NamesInLines := by
    simp [disguisedMapping, Forest.NamesInLines, Forest.push]
  have hnames' : halfNamedMapping.properties.NamesInLines := by
    simp [halfNamedMapping, Forest.NamesInLines, Forest.push]
  refine ⟨hnames, hnames', fun hsame => ?_⟩
  have hequal := (render_eq_iff hnames hnames').mp hsame
  exact absurd hequal (by decide)

end Mapping
end FieldMap
