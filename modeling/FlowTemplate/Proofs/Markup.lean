/-
What the readers of markup take up: names, the text up to a character and the text up to a literal.
Each lemma comes with one about more text behind: where a reader stops at a character or finds what it
looks for, what follows makes no difference to it.
-/
import FlowTemplate.Markup.Name
import FlowTemplate.Proofs.Text

namespace FlowTemplate

namespace Text

theorem after?_append_cons {literal : Text} {c : Char} (h : c ∉ literal) (text rest : Text) :
    after? literal (text ++ c :: rest) = (after? literal text).map (· ++ c :: rest) := by
  induction literal generalizing text with
  | nil => rfl
  | cons d literal ih =>
    simp only [List.mem_cons, not_or] at h
    cases text with
    | nil => simp [after?, List.isPrefixOf?, Ne.symm h.1]
    | cons e text =>
      have := ih h.2 text
      simp only [after?, List.cons_append, List.isPrefixOf?] at this ⊢
      split
      · exact this
      · rfl

theorem takeWhile_append_cons {p : Char → Bool} {c : Char} (h : p c = false) (text rest : Text) :
    (text ++ c :: rest).takeWhile p = text.takeWhile p := by
  induction text with
  | nil => simp [h]
  | cons d text ih => simp only [List.cons_append, List.takeWhile_cons, ih]

theorem dropWhile_append_cons {p : Char → Bool} {c : Char} (h : p c = false) (text rest : Text) :
    (text ++ c :: rest).dropWhile p = text.dropWhile p ++ c :: rest := by
  induction text with
  | nil => simp [h]
  | cons d text ih =>
    simp only [List.cons_append, List.dropWhile_cons, ih]
    split <;> rfl

end Text

namespace Markup

theorem readUntil?_eq_some_iff {c : Char} {text before after : Text} :
    readUntil? c text = some (before, after) ↔ text = before ++ c :: after ∧ c ∉ before := by
  rw [readUntil?]
  constructor
  · intro h
    split at h
    next hcut =>
      cases h
      exact Text.cut_eq_some hcut
    next => cases h
  · rintro ⟨rfl, hfree⟩
    rw [Text.cut_append_cons after hfree]

theorem readUntil?_of_not_mem {c : Char} {text : Text} (h : c ∉ text) : readUntil? c text = none := by
  rw [readUntil?, Text.cut_of_not_mem h]

theorem readUntil?_append_of_mem {c : Char} {text : Text} (h : c ∈ text) (rest : Text) :
    readUntil? c (text ++ rest) =
      (readUntil? c text).map fun (before, after) => (before, after ++ rest) := by
  obtain ⟨front, back, rfl, hfree⟩ := List.eq_append_cons_of_mem h
  rw [readUntil?_eq_some_iff.2 ⟨rfl, hfree⟩, List.append_assoc, List.cons_append]
  exact readUntil?_eq_some_iff.2 ⟨rfl, hfree⟩

theorem readUntil?_append {c : Char} {rest : Text} (h : c ∉ rest) (text : Text) :
    readUntil? c (text ++ rest) =
      (readUntil? c text).map fun (before, after) => (before, after ++ rest) := by
  by_cases hc : c ∈ text
  · exact readUntil?_append_of_mem hc rest
  · rw [readUntil?_of_not_mem hc, readUntil?_of_not_mem (List.not_mem_append hc h)]
    rfl

theorem readUpTo?_eq_some {after? : Text → Option Text} {text before rest : Text}
    (h : readUpTo? after? text = some (before, rest)) :
    ∃ back, text = before ++ back ∧ after? back = some rest := by
  induction text generalizing before with
  | nil =>
    rw [readUpTo?, Option.map_eq_some_iff] at h
    obtain ⟨rest, hafter, heq⟩ := h
    cases heq
    exact ⟨[], rfl, hafter⟩
  | cons c cs ih =>
    rw [readUpTo?] at h
    split at h
    next hafter =>
      cases h
      exact ⟨c :: cs, rfl, hafter⟩
    next =>
      rw [Option.map_eq_some_iff] at h
      obtain ⟨⟨front, _⟩, hfront, heq⟩ := h
      cases heq
      obtain ⟨back, rfl, hafter⟩ := ih hfront
      exact ⟨back, rfl, hafter⟩

theorem readUpTo?_append {after? : Text → Option Text} {rest : Text}
    (h : ∀ text, after? (text ++ rest) = (after? text).map (· ++ rest))
    (hrest : readUpTo? after? rest = none) (text : Text) :
    readUpTo? after? (text ++ rest) =
      (readUpTo? after? text).map fun (before, left) => (before, left ++ rest) := by
  induction text with
  | nil =>
    have hnil : after? [] = none := by
      cases hr : after? rest with
      | none => exact Option.map_eq_none_iff.1 ((h []).symm.trans hr)
      | some left => cases rest <;> simp [readUpTo?, hr] at hrest
    rw [List.nil_append, hrest, readUpTo?, hnil]
    rfl
  | cons c cs ih =>
    have hc := h (c :: cs)
    rw [List.cons_append] at hc ⊢
    rw [readUpTo?, hc, readUpTo?, ih]
    cases after? (c :: cs) with
    | some left => rfl
    | none => cases readUpTo? after? cs <;> rfl

theorem readUpTo?_eq_none {after? : Text → Option Text} {text : Text}
    (h : ∀ back, back <:+ text → after? back = none) : readUpTo? after? text = none := by
  induction text with
  | nil => rw [readUpTo?, h [] List.suffix_rfl]; rfl
  | cons c cs ih =>
    rw [readUpTo?, h (c :: cs) List.suffix_rfl,
      ih fun back hb => h back (hb.trans (List.suffix_cons c cs))]
    rfl

/-- A text that goes on as a name. -/
def Continues (name : Text) : Prop := ∀ c ∈ name, continuesName c = true

theorem readName?_eq_some {text name rest : Text} (h : readName? text = some (name, rest)) :
    name ≠ [] ∧ Continues name ∧ text = name ++ rest := by
  cases text with
  | nil => cases h
  | cons c cs =>
    rw [readName?] at h
    split at h
    next hc =>
      cases h
      refine ⟨List.cons_ne_nil _ _, ?_, by rw [List.cons_append, List.takeWhile_append_dropWhile]⟩
      intro d hd
      rcases List.mem_cons.1 hd with rfl | hd
      · rw [continuesName, Char.isAlphanum]
        simp [startsName] at hc
        simp [hc]
      · exact List.mem_takeWhile_imp hd
    next => cases h

theorem readName?_append_cons {c : Char} (h : continuesName c = false) (text rest : Text) :
    readName? (text ++ c :: rest) =
      (readName? text).map fun (name, left) => (name, left ++ c :: rest) := by
  cases text with
  | nil =>
    have hc : ¬ startsName c := by
      intro hs
      rw [continuesName, Char.isAlphanum] at h
      rw [startsName] at hs
      simp [hs] at h
    exact if_neg hc
  | cons d text =>
    rw [List.cons_append, readName?, readName?]
    split
    · rw [Text.takeWhile_append_cons h, Text.dropWhile_append_cons h]
      rfl
    · rfl

theorem Continues.not_mem {name : Text} (h : Continues name) {c : Char}
    (hc : continuesName c = false) : c ∉ name := fun hm => by
  have := h c hm
  rw [hc] at this
  exact Bool.noConfusion this

theorem Continues.not_infix {name : Text} (h : Continues name) {c : Char} (hc : continuesName c = false)
    (w : Text) : ¬ c :: w <:+: name := fun hwithin => h.not_mem hc (hwithin.subset List.mem_cons_self)

theorem continuesName_of_isBlank {c : Char} (h : isBlank c = true) : continuesName c = false := by
  have key : ∀ n ∈ Text.blankCodes, continuesName (Char.ofNat n) = false := by decide +kernel
  have := key c.toNat (Text.isBlank_iff.1 h)
  rwa [Char.ofNat_toNat] at this

/-- Whether a text is a name. -/
def IsName (text : Text) : Prop := readName? text = some (text, [])

instance {text : Text} : Decidable (IsName text) :=
  inferInstanceAs (Decidable (readName? text = some (text, [])))

theorem IsName.readName? {name rest : Text} (h : IsName name)
    (hrest : ∀ c ∈ rest.head?, continuesName c = false) : readName? (name ++ rest) = some (name, rest) := by
  cases rest with
  | nil => rwa [List.append_nil]
  | cons c rest =>
    rw [readName?_append_cons (hrest c rfl), h]
    rfl

theorem IsName.continues {name : Text} (h : IsName name) : Continues name := (readName?_eq_some h).2.1

/-- A search for a literal ends no later than behind any place where that stands. -/
theorem readUpTo?_of_append {literal : Text} (hne : literal ≠ []) (front back : Text) :
    ∃ before rest, readUpTo? (Text.after? literal) (front ++ (literal ++ back)) = some (before, rest) ∧
      back <:+ rest := by
  induction front with
  | nil =>
    have hafter := Text.after?_append literal back
    obtain ⟨c, cs, rfl⟩ := List.exists_cons_of_ne_nil hne
    rw [List.cons_append] at hafter
    exact ⟨[], back, by rw [List.nil_append, List.cons_append, readUpTo?, hafter], List.suffix_rfl⟩
  | cons c front ih =>
    rw [List.cons_append, readUpTo?]
    cases hafter : Text.after? literal (c :: (front ++ (literal ++ back))) with
    | some rest =>
      have htext := Text.after?_eq_some_iff.1 hafter
      have hlength := congrArg List.length htext
      simp only [List.length_cons, List.length_append] at hlength
      refine ⟨[], rest, rfl, List.suffix_of_suffix_length_le ?_ (List.suffix_append literal rest) (by omega)⟩
      rw [← htext]
      exact ⟨c :: (front ++ literal), by simp⟩
    | none =>
      obtain ⟨before, rest, hread, hback⟩ := ih
      exact ⟨c :: before, rest, by rw [hread]; rfl, hback⟩

end Markup

end FlowTemplate
