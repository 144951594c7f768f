import FieldMap.Schema.Declaration
import Mathlib.Data.List.TakeDrop
import Mathlib.Data.List.TakeWhile

/-!
# The forms of declarations

The three forms of `Schema.Declaration` are regular: words, blanks and fixed characters one
after the other.  Here each of them is stated as a way to cut the text into such pieces, and
the readers, which never look back, are shown to accept exactly the texts that can be cut:

* `header?_eq_some_iff` for a struct header, with the text after its brace;
* `bodyField?_eq_some_iff` and `inlineField?_eq_some_iff` for the two forms of a field.

Nothing is lost by not looking back, because the classes of characters are disjoint: no blank
and none of the characters `:`, `,`, `[` and `]` is a word character, and `]` is no digit.
For the same reason a header is never a field (`bodyField?_eq_none_of_header?`).
-/

namespace FieldMap

namespace Text

/-- All characters are blank. -/
def Blanks (gap : List Char) : Prop :=
  ∀ c ∈ gap, isBlank c = true

/-- At least one word character, and no other. -/
structure IsName (word : List Char) : Prop where
  ne_nil : word ≠ []
  isWord : ∀ c ∈ word, isWord c = true

/-- The numbers of the blank characters. -/
def blankCodes : List Nat :=
  [0x9, 0xA, 0xB, 0xC, 0xD, 0x20, 0x85, 0xA0, 0x1680, 0x2000, 0x2001, 0x2002, 0x2003, 0x2004,
   0x2005, 0x2006, 0x2007, 0x2008, 0x2009, 0x200A, 0x2028, 0x2029, 0x202F, 0x205F, 0x3000]

theorem toNat_mem_blankCodes {c : Char} (h : isBlank c = true) : c.toNat ∈ blankCodes := by
  simp only [isBlank, Bool.or_eq_true, Bool.and_eq_true, decide_eq_true_eq, beq_iff_eq] at h
  simp only [blankCodes, List.mem_cons, List.not_mem_nil, or_false]
  omega

/-- A blank is no word character. -/
theorem isWord_eq_false_of_isBlank {c : Char} (h : isBlank c = true) : isWord c = false := by
  have hcodes : ∀ n ∈ blankCodes, isWord (Char.ofNat n) = false := by decide +kernel
  have hc := hcodes c.toNat (toNat_mem_blankCodes h)
  rwa [Char.ofNat_toNat] at hc

theorem IsName.isBlank_eq_false {word : List Char} (hword : IsName word) {c : Char}
    (hc : c ∈ word) : isBlank c = false := by
  have hisWord := hword.isWord c hc
  cases hblank : isBlank c with
  | false => rfl
  | true =>
      rw [isWord_eq_false_of_isBlank hblank] at hisWord
      cases hisWord

/-- A text is cut into the longest run of a class of characters and the rest. -/
theorem span_eq_iff {p : Char → Bool} {cs run rest : List Char} :
    cs.span p = (run, rest) ↔
      cs = run ++ rest ∧ (∀ c ∈ run, p c = true) ∧ ∀ c ∈ rest.head?, p c = false := by
  rw [List.span_eq_takeWhile_dropWhile]
  constructor
  · intro h
    obtain ⟨rfl, rfl⟩ := Prod.mk.inj h
    refine ⟨List.takeWhile_append_dropWhile.symm, fun c hc => List.mem_takeWhile_imp hc, ?_⟩
    intro c hc
    have hstop := List.head?_dropWhile_not p cs
    rw [Option.mem_def.mp hc] at hstop
    exact hstop
  · rintro ⟨rfl, hrun, hrest⟩
    rw [List.takeWhile_append_of_pos hrun, List.dropWhile_append_of_pos hrun]
    cases rest with
    | nil => simp
    | cons c rest => simp [hrest c rfl]

/-- The text does not go on with a word character. -/
def EndsWord (rest : List Char) : Prop :=
  ∀ c ∈ rest.head?, isWord c = false

theorem endsWord_cons {c : Char} {rest : List Char} : EndsWord (c :: rest) ↔ isWord c = false := by
  simp [EndsWord]

/-- Blanks end a word, and if there are none then what follows them must. -/
theorem Blanks.endsWord {gap rest : List Char} (hgap : Blanks gap) (hrest : EndsWord rest) :
    EndsWord (gap ++ rest) := by
  cases gap with
  | nil => exact hrest
  | cons c gap => exact endsWord_cons.mpr (isWord_eq_false_of_isBlank (hgap c List.mem_cons_self))

theorem exists_blanks (cs : List Char) : ∃ gap, Blanks gap ∧ cs = gap ++ skipBlank cs := by
  refine ⟨cs.takeWhile isBlank, ?_, List.takeWhile_append_dropWhile.symm⟩
  exact fun c hc => List.mem_takeWhile_imp hc

theorem skipBlank_append {gap rest : List Char} (hgap : Blanks gap)
    (hrest : ∀ c ∈ rest.head?, isBlank c = false) : skipBlank (gap ++ rest) = rest := by
  have hspan := span_eq_iff.mpr ⟨rfl, hgap, hrest⟩
  rw [List.span_eq_takeWhile_dropWhile] at hspan
  exact (Prod.mk.inj hspan).2

end Text

namespace Schema

open Text (isBlank isWord isDigit skipBlank Blanks IsName EndsWord)

/-! ## Pieces -/

theorem literal?_eq_some_iff {text cs rest : List Char} :
    literal? text cs = some rest ↔ cs = text ++ rest := by
  induction text generalizing cs with
  | nil => simp [literal?]
  | cons t text ih =>
      cases cs with
      | nil => simp [literal?]
      | cons c cs =>
          rw [literal?]
          by_cases hc : t = c
          · subst hc
            simp [ih]
          · simp [hc, Ne.symm hc]

/-- A fixed text after blanks, if it does not begin with one. -/
theorem literal?_skipBlank_eq_some_iff {t : Char} {text cs rest : List Char}
    (ht : isBlank t = false) :
    literal? (t :: text) (skipBlank cs) = some rest ↔
      ∃ gap, Blanks gap ∧ cs = gap ++ (t :: text ++ rest) := by
  rw [literal?_eq_some_iff]
  constructor
  · intro h
    obtain ⟨gap, hgap, hcs⟩ := Text.exists_blanks cs
    exact ⟨gap, hgap, h ▸ hcs⟩
  · rintro ⟨gap, hgap, rfl⟩
    apply Text.skipBlank_append hgap
    rintro c ⟨⟩
    exact ht

theorem word?_eq_some_iff {cs rest : List Char} {name : String} :
    word? cs = some (name, rest) ↔ ∃ word, IsName word ∧ name = String.ofList word ∧
      EndsWord rest ∧ cs = word ++ rest := by
  unfold word?
  constructor
  · intro h
    split at h
    · cases h
    · next word left hne hcut =>
        cases h
        obtain ⟨hcs, hword, hrest⟩ := Text.span_eq_iff.mp hcut
        refine ⟨word, ⟨?_, hword⟩, rfl, hrest, hcs⟩
        rintro rfl
        exact hne rfl
  · rintro ⟨word, ⟨hne, hword⟩, rfl, hrest, hcs⟩
    rw [Text.span_eq_iff.mpr ⟨hcs, hword, hrest⟩]
    cases word with
    | nil => exact absurd rfl hne
    | cons c word => rfl

/-- A word after blanks. -/
theorem word?_skipBlank_eq_some_iff {cs rest : List Char} {name : String} :
    word? (skipBlank cs) = some (name, rest) ↔ ∃ gap word, Blanks gap ∧ IsName word ∧
      name = String.ofList word ∧ EndsWord rest ∧ cs = gap ++ (word ++ rest) := by
  rw [word?_eq_some_iff]
  constructor
  · rintro ⟨word, hword, hname, hrest, hskip⟩
    obtain ⟨gap, hgap, hcs⟩ := Text.exists_blanks cs
    exact ⟨gap, word, hgap, hword, hname, hrest, hskip ▸ hcs⟩
  · rintro ⟨gap, word, hgap, hword, hname, hrest, rfl⟩
    refine ⟨word, hword, hname, hrest, Text.skipBlank_append hgap ?_⟩
    -- The word begins with a word character, and no blank is one.
    obtain ⟨first, tail, rfl⟩ := List.exists_cons_of_ne_nil hword.ne_nil
    rintro c ⟨⟩
    exact hword.isBlank_eq_false List.mem_cons_self

/-! ## Headers -/

/-- `name :: struct {` and a rest, with any blanks between the tokens. -/
def HeaderForm (text : List Char) (name : String) (rest : List Char) : Prop :=
  ∃ word gap₁ gap₂ gap₃, IsName word ∧ name = String.ofList word ∧
    Blanks gap₁ ∧ Blanks gap₂ ∧ Blanks gap₃ ∧
    text = word ++ (gap₁ ++ ([':', ':'] ++ (gap₂ ++ (['s', 't', 'r', 'u', 'c', 't'] ++
      (gap₃ ++ (['\x7b'] ++ rest))))))

/-- A header is read exactly where its form is. -/
theorem header?_eq_some_iff {text rest : List Char} {name : String} :
    header? text = some (name, rest) ↔ HeaderForm text name rest := by
  have hcolon : isBlank ':' = false := by decide
  have hs : isBlank 's' = false := by decide
  have hbrace : isBlank '\x7b' = false := by decide
  simp only [header?, Option.bind_eq_bind, Option.bind_eq_some_iff, Prod.exists,
    word?_eq_some_iff, literal?_skipBlank_eq_some_iff hcolon, literal?_skipBlank_eq_some_iff hs,
    literal?_skipBlank_eq_some_iff hbrace, Option.some.injEq, Prod.mk.injEq]
  constructor
  · rintro ⟨_, left₁, ⟨word, hword, rfl, -, rfl⟩, left₂, ⟨gap₁, hgap₁, rfl⟩, left₃,
      ⟨gap₂, hgap₂, rfl⟩, left₄, ⟨gap₃, hgap₃, rfl⟩, rfl, rfl⟩
    exact ⟨word, gap₁, gap₂, gap₃, hword, rfl, hgap₁, hgap₂, hgap₃, rfl⟩
  · rintro ⟨word, gap₁, gap₂, gap₃, hword, rfl, hgap₁, hgap₂, hgap₃, rfl⟩
    refine ⟨_, _, ⟨word, hword, rfl, hgap₁.endsWord ?_, rfl⟩, _, ⟨gap₁, hgap₁, rfl⟩, _,
      ⟨gap₂, hgap₂, rfl⟩, _, ⟨gap₃, hgap₃, rfl⟩, rfl, rfl⟩
    exact Text.endsWord_cons.mpr (by decide)

/-! ## Fields -/

/-- A repeat count in brackets, or nothing. -/
def bracketText : Option (List Char) → List Char
  | none => []
  | some digits => '[' :: (digits ++ [']'])

/-- `name : type`, with a repeat count in brackets or without one, and a rest, with any blanks
between the name, the colon and the type. -/
def FieldForm (text : List Char) (field : Field) (rest : List Char) : Prop :=
  ∃ word gap₁ gap₂ typeWord, IsName word ∧ field.name = String.ofList word ∧
    IsName typeWord ∧ field.typeName = String.ofList typeWord ∧ Blanks gap₁ ∧ Blanks gap₂ ∧
    (∀ digits ∈ field.digits, digits ≠ [] ∧ ∀ c ∈ digits, isDigit c = true) ∧
    text = word ++ (gap₁ ++ ([':'] ++ (gap₂ ++ (typeWord ++
      (bracketText field.digits ++ rest)))))

/-- What may follow a field that is read: nothing that would go on with its last word or open
a bracket. -/
def EndsField (rest : List Char) : Prop :=
  EndsWord rest ∧ rest.head? ≠ some '['

theorem of_bracket {cs rest : List Char} {digits? : Option (List Char)}
    (h : bracket cs = (digits?, rest)) :
    cs = bracketText digits? ++ rest ∧
      ∀ digits ∈ digits?, digits ≠ [] ∧ ∀ c ∈ digits, isDigit c = true := by
  unfold bracket at h
  split at h
  · next inside =>
      split at h
      · next digit digits rest hcut =>
          cases h
          obtain ⟨rfl, hdigits, -⟩ := Text.span_eq_iff.mp hcut
          refine ⟨by simp [bracketText], ?_⟩
          rintro _ ⟨⟩
          exact ⟨List.cons_ne_nil _ _, hdigits⟩
      · cases h
        exact ⟨rfl, nofun⟩
  · cases h
    exact ⟨rfl, nofun⟩

theorem bracket_bracketText {digits? : Option (List Char)} {rest : List Char}
    (hdigits : ∀ digits ∈ digits?, digits ≠ [] ∧ ∀ c ∈ digits, isDigit c = true)
    (hrest : rest.head? ≠ some '[') : bracket (bracketText digits? ++ rest) = (digits?, rest) := by
  cases digits? with
  | none =>
      show bracket rest = (none, rest)
      unfold bracket
      split
      · exact absurd rfl hrest
      · rfl
  | some digits =>
      obtain ⟨hne, hall⟩ := hdigits digits rfl
      have hcut : (digits ++ ([']'] ++ rest)).span isDigit = (digits, ']' :: rest) := by
        refine Text.span_eq_iff.mpr ⟨rfl, hall, ?_⟩
        rintro c ⟨⟩
        decide
      obtain ⟨digit, tail, rfl⟩ := List.exists_cons_of_ne_nil hne
      rw [bracketText, List.cons_append, List.append_assoc, bracket]
      simp only [hcut]

/-- A field is read as far as its form goes. -/
theorem fieldForm_of_field? {text rest : List Char} {field : Field}
    (h : field? text = some (field, rest)) : FieldForm text field rest := by
  have hcolon : isBlank ':' = false := by decide
  simp only [field?, Option.bind_eq_bind, Option.bind_eq_some_iff, Prod.exists,
    word?_skipBlank_eq_some_iff, literal?_skipBlank_eq_some_iff hcolon, Option.some.injEq,
    Prod.mk.injEq] at h
  obtain ⟨_, left₁, hname, left₂, ⟨gap₁, hgap₁, rfl⟩, _, left₃,
    ⟨gap₂, typeWord, hgap₂, htype, rfl, -, rfl⟩, rfl, rfl⟩ := h
  obtain ⟨word, hword, rfl, -, rfl⟩ := word?_eq_some_iff.mp hname
  generalize hbracket : bracket left₃ = cut
  obtain ⟨digits?, rest⟩ := cut
  obtain ⟨rfl, hdigits⟩ := of_bracket hbracket
  exact ⟨word, gap₁, gap₂, typeWord, hword, rfl, htype, rfl, hgap₁, hgap₂, hdigits, rfl⟩

theorem field?_of_fieldForm {text rest : List Char} {field : Field}
    (h : FieldForm text field rest) (hrest : EndsField rest) :
    field? text = some (field, rest) := by
  obtain ⟨name, typeName, digits?⟩ := field
  obtain ⟨word, gap₁, gap₂, typeWord, hword, rfl, htype, rfl, hgap₁, hgap₂, hdigits, rfl⟩ := h
  have hcolon : isBlank ':' = false := by decide
  have hname : EndsWord (gap₁ ++ ([':'] ++ (gap₂ ++ (typeWord ++
      (bracketText digits? ++ rest))))) :=
    hgap₁.endsWord (Text.endsWord_cons.mpr (by decide))
  have htypeName : EndsWord (bracketText digits? ++ rest) := by
    cases digits? with
    | none => exact hrest.1
    | some digits => exact Text.endsWord_cons.mpr (by decide)
  simp only [field?, Option.bind_eq_bind, Option.bind_eq_some_iff, Prod.exists]
  refine ⟨_, _, word?_eq_some_iff.mpr ⟨word, hword, rfl, hname, rfl⟩, _,
    (literal?_skipBlank_eq_some_iff hcolon).mpr ⟨gap₁, hgap₁, rfl⟩, _, _,
    word?_skipBlank_eq_some_iff.mpr ⟨gap₂, typeWord, hgap₂, htype, rfl, htypeName, rfl⟩, ?_⟩
  rw [bracket_bracketText hdigits hrest.2]

/-- A field of a body line, which a comma ends. -/
def BodyFieldForm (text : List Char) (field : Field) : Prop :=
  ∃ gap rest, Blanks gap ∧ FieldForm text field (gap ++ (',' :: rest))

theorem bodyField?_eq_some_iff {text : List Char} {field : Field} :
    bodyField? text = some field ↔ BodyFieldForm text field := by
  unfold bodyField?
  constructor
  · intro h
    split at h
    · next found rest hfield =>
        split at h
        · next tail hskip =>
            cases h
            obtain ⟨gap, hgap, hcut⟩ := Text.exists_blanks rest
            rw [hskip] at hcut
            exact ⟨gap, tail, hgap, hcut ▸ fieldForm_of_field? hfield⟩
        · cases h
    · cases h
  · rintro ⟨gap, rest, hgap, hform⟩
    have hends : EndsField (gap ++ (',' :: rest)) := by
      refine ⟨hgap.endsWord (Text.endsWord_cons.mpr (by decide)), ?_⟩
      cases gap with
      | nil => exact nofun
      | cons c gap =>
          rintro ⟨⟩
          exact absurd (hgap '[' List.mem_cons_self) (by decide)
    have hskip : skipBlank (gap ++ (',' :: rest)) = ',' :: rest := by
      apply Text.skipBlank_append hgap
      rintro c ⟨⟩
      decide
    simp only [field?_of_fieldForm hform hends, hskip]

theorem inlineField?_eq_some_iff {text : List Char} {field : Field} :
    inlineField? text = some field ↔ FieldForm text field [] := by
  unfold inlineField?
  constructor
  · intro h
    split at h
    · next found hfield =>
        cases h
        exact fieldForm_of_field? hfield
    · cases h
  · intro hform
    have hends : EndsField [] := ⟨nofun, nofun⟩
    simp only [field?_of_fieldForm hform hends]

/-- A line that is a header is no field: its name is followed by two colons. -/
theorem bodyField?_eq_none_of_header? {text rest : List Char} {name : String}
    (h : header? text = some (name, rest)) : bodyField? text = none := by
  simp only [header?, Option.bind_eq_bind, Option.bind_eq_some_iff, Prod.exists] at h
  obtain ⟨name, left, hname, left₂, hcolons, -⟩ := h
  have hskip : skipBlank left = ':' :: (':' :: left₂) := literal?_eq_some_iff.mp hcolons
  have hnext : literal? [':'] (skipBlank left) = some (':' :: left₂) :=
    literal?_eq_some_iff.mpr hskip
  have htype : word? (skipBlank (':' :: left₂)) = none := rfl
  have hfield : field? text = none := by
    simp [field?, hname, hnext, htype]
  rw [bodyField?, hfield]

theorem header?_eq_none_of_bodyField? {text : List Char} {field : Field}
    (h : bodyField? text = some field) : header? text = none := by
  cases hheader : header? text with
  | none => rfl
  | some header =>
      rw [bodyField?_eq_none_of_header? hheader] at h
      cases h

end Schema
end FieldMap
