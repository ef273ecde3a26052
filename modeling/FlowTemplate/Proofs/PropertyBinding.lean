/-
Property bindings in an element. No name goes across an angle, so the content of an element and its
opening tag are compiled each by itself (`compile_element`). In the value of a directive only the end
can be taken for a property binding, because the value has no quote (`compile_value_iff`).
-/
import FlowTemplate.Proofs.Markup
import FlowTemplate.Proofs.Segment
import FlowTemplate.Proofs.Template.Basic
import FlowTemplate.PropertyBinding

namespace FlowTemplate.PropertyBinding

/-- The name of a property: a letter, then letters and digits. -/
def ValidName (name : Text) : Prop :=
  ∃ c cs, name = c :: cs ∧ c.isAlpha = true ∧ ∀ d ∈ cs, d.isAlphanum = true

theorem ValidName.alphanum {name : Text} (h : ValidName name) {c : Char} (hc : c ∈ name) :
    c.isAlphanum = true := by
  obtain ⟨d, cs, rfl, hd, hcs⟩ := h
  rcases List.mem_cons.1 hc with rfl | hc
  · rw [Char.isAlphanum, hd, Bool.true_or]
  · exact hcs c hc

/-- What a property binding begins with. -/
def binding (name : Text) : Text := '[' :: (name ++ "]=\"".toList)

theorem readBinding_eq_some_iff {text name rest : Text} :
    readBinding text = some (name, rest) ↔ ValidName name ∧ text = binding name ++ rest := by
  simp only [readBinding, Option.bind_eq_bind, Option.bind_eq_some_iff]
  constructor
  · rintro ⟨inside, hafter, h⟩
    obtain rfl := Text.after?_eq_some_iff.1 hafter
    cases inside with
    | nil => cases h
    | cons c cs =>
      simp only at h
      split at h
      next hc =>
        obtain ⟨left, hleft, h⟩ := Option.bind_eq_some_iff.1 h
        cases h
        refine ⟨⟨c, _, rfl, hc, fun d hd => List.mem_takeWhile_imp hd⟩, ?_⟩
        have hcs : cs = cs.takeWhile Char.isAlphanum ++ ("]=\"".toList ++ rest) := by
          rw [← Text.after?_eq_some_iff.1 hleft, List.takeWhile_append_dropWhile]
        conv_lhs => rw [hcs]
        simp [binding]
      next => cases h
  · rintro ⟨⟨c, cs, rfl, hc, hcs⟩, rfl⟩
    have htake : (cs ++ ']' :: '=' :: '"' :: rest).takeWhile Char.isAlphanum = cs := by
      rw [Text.takeWhile_append_cons (by decide)]
      exact List.takeWhile_eq_self_iff.2 hcs
    have hdrop : (cs ++ ']' :: '=' :: '"' :: rest).dropWhile Char.isAlphanum = ']' :: '=' :: '"' :: rest := by
      rw [Text.dropWhile_append_cons (by decide), List.dropWhile_eq_nil_iff.2 hcs]
      rfl
    have hshape : binding (c :: cs) ++ rest = '[' :: c :: (cs ++ ']' :: '=' :: '"' :: rest) := by
      simp [binding]
    refine ⟨c :: (cs ++ ']' :: '=' :: '"' :: rest), by rw [hshape]; rfl, ?_⟩
    simp only [if_pos hc, htake, hdrop]
    rfl

theorem readBinding_beginsWith : readBinding.BeginsWith '[' := by
  intro text name rest h
  obtain ⟨-, rfl⟩ := readBinding_eq_some_iff.1 h
  rfl

theorem readBinding_consumes : readBinding.Consumes := by
  intro text name rest h
  obtain ⟨-, rfl⟩ := readBinding_eq_some_iff.1 h
  exact ⟨binding name, List.cons_ne_nil _ _, rfl⟩

/-- A property binding ends before a character that it has no place for. -/
theorem readBinding_append_cons {c : Char} (halpha : c.isAlphanum = false) (hc : c ∉ "]=\"".toList)
    {text : Text} (hne : text ≠ []) (rest : Text) :
    readBinding (text ++ c :: rest) =
      (readBinding text).map fun (name, left) => (name, left ++ c :: rest) := by
  cases hread : readBinding text with
  | some result =>
    obtain ⟨name, left⟩ := result
    obtain ⟨hname, rfl⟩ := readBinding_eq_some_iff.1 hread
    exact readBinding_eq_some_iff.2 ⟨hname, by rw [List.append_assoc]⟩
  | none =>
    rw [Option.map_none, Option.eq_none_iff_forall_not_mem]
    rintro ⟨name, left⟩ hsome
    obtain ⟨hname, htext⟩ := readBinding_eq_some_iff.1 hsome
    rcases List.append_eq_append_iff.1 htext with ⟨more, heq, hmore⟩ | ⟨more, rfl, hmore⟩
    · obtain ⟨d, front, rfl⟩ := List.exists_cons_of_ne_nil hne
      cases more with
      | nil =>
        have hwhole := readBinding_eq_some_iff.2 (⟨hname, rfl⟩ : ValidName name ∧ binding name ++ [] = _)
        rw [List.append_nil, heq, List.append_nil, hread] at hwhole
        cases hwhole
      | cons e more =>
        -- Behind its first character a binding has nothing but letters, digits and its end.
        obtain ⟨rfl, -⟩ := List.cons.inj hmore
        obtain ⟨-, htail⟩ := List.cons.inj heq
        have hmem : c ∈ name ++ "]=\"".toList := htail ▸ List.mem_append_right _ List.mem_cons_self
        rcases List.mem_append.1 hmem with hm | hm
        · rw [hname.alphanum hm] at halpha
          cases halpha
        · exact hc hm
    · rw [readBinding_eq_some_iff.2 ⟨hname, rfl⟩] at hread
      cases hread

theorem compile_eq_rewrite (template : Text) :
    compile template = Segment.rewrite readBinding (fun name _ => spell name) template :=
  Segment.replace_eq_rewrite _ _

theorem compile_append_of_not_mem {front : Text} (h : '[' ∉ front) (rest : Text) :
    compile (front ++ rest) = front ++ compile rest := by
  rw [compile_eq_rewrite, compile_eq_rewrite]
  exact Segment.rewrite_append_of_not_mem readBinding_beginsWith h rest

/-- A text is compiled by itself before a character that no property binding goes across. -/
theorem compile_append_cons {c : Char} (halpha : c.isAlphanum = false) (hc : c ∉ "]=\"".toList)
    (front rest : Text) : compile (front ++ c :: rest) = compile front ++ compile (c :: rest) := by
  simp only [compile_eq_rewrite]
  exact Segment.rewrite_append readBinding_consumes fun t hne _ =>
    readBinding_append_cons halpha hc hne rest

/-! ## The value of a directive -/

/-- A value ends in what reads as a property binding whose name changes. -/
def EndsInBinding (value : Text) : Prop :=
  ∃ front name, ValidName name ∧ value = front ++ '[' :: (name ++ [']', '=']) ∧ kebab name ≠ name

theorem compile_ending {front name : Text} (hname : ValidName name) (hfront : '"' ∉ front) :
    compile (front ++ binding name) = front ++ spell name := by
  have hkept : compile front = front := by
    rw [compile_eq_rewrite]
    refine Segment.rewrite_of_none fun t ht => ?_
    rw [Option.eq_none_iff_forall_not_mem]
    rintro ⟨found, rest⟩ hread
    obtain ⟨-, rfl⟩ := readBinding_eq_some_iff.1 hread
    exact hfront (ht.subset (by simp [binding]))
  have hread : readBinding (binding name ++ []) = some (name, []) :=
    readBinding_eq_some_iff.2 ⟨hname, rfl⟩
  have hspelled : compile (binding name) = spell name := by
    have hne : binding name ≠ [] := List.cons_ne_nil _ _
    rw [compile_eq_rewrite, ← List.append_nil (binding name), Segment.rewrite_hit hne hread,
      Segment.rewrite_nil, List.append_nil]
  rw [binding, compile_append_cons (by decide) (by decide), hkept, ← binding, hspelled]

theorem compile_value_iff {value : Text} (h : '"' ∉ value) :
    compile (value ++ ['"']) = value ++ ['"'] ↔ ¬ EndsInBinding value := by
  have hshape : ∀ front name : Text,
      front ++ '[' :: (name ++ [']', '=']) ++ ['"'] = front ++ binding name := fun front name => by
    simp [binding]
  constructor
  · rintro hsame ⟨front, name, hname, rfl, hkebab⟩
    have hfront : '"' ∉ front := fun hm => h (List.mem_append_left _ hm)
    rw [hshape, compile_ending hname hfront] at hsame
    have hspell : kebab name ++ "]=\"".toList = name ++ "]=\"".toList := by
      have hwhole : spell name = binding name := List.append_cancel_left hsame
      rw [spell, binding, List.append_assoc, List.singleton_append] at hwhole
      exact (List.cons.inj hwhole).2
    exact hkebab (List.append_cancel_right hspell)
  · intro hends
    by_cases hbinding : ∃ front name, ValidName name ∧ value = front ++ '[' :: (name ++ [']', '='])
    · obtain ⟨front, name, hname, rfl⟩ := hbinding
      have hfront : '"' ∉ front := fun hm => h (List.mem_append_left _ hm)
      have hkebab : kebab name = name := by
        by_contra hne
        exact hends ⟨front, name, hname, rfl, hne⟩
      rw [hshape, compile_ending hname hfront, spell, hkebab]
      rfl
    · rw [compile_eq_rewrite]
      refine Segment.rewrite_of_none fun t ht => ?_
      rw [Option.eq_none_iff_forall_not_mem]
      rintro ⟨name, rest⟩ hread
      obtain ⟨hname, rfl⟩ := readBinding_eq_some_iff.1 hread
      obtain ⟨front, htext⟩ := ht
      rcases List.eq_nil_or_concat rest with rfl | ⟨back, last, rfl⟩
      · rw [List.append_nil, ← hshape] at htext
        exact hbinding ⟨front, name, hname, (List.append_cancel_right htext).symm⟩
      · rw [List.concat_eq_append, ← List.append_assoc, ← List.append_assoc] at htext
        have hvalue := List.append_inj_left' htext rfl
        exact h (hvalue ▸ by simp [binding])

/-! ## Elements -/

/-- An element with the value in its opening tag, up to the quote, as a part of its own. -/
theorem element_eq (directive value content : Text) :
    Template.element directive value content =
      "<ng-container ".toList ++ directive ++ "=\"".toList ++
        ((value ++ ['"']) ++ '>' :: (content ++ Template.closing)) := by
  unfold Template.element Template.opening
  generalize "<ng-container ".toList ++ directive ++ "=\"".toList = front
  simp only [List.append_assoc]
  rfl

/-- Of the opening tag of an element only the value can be changed. -/
theorem compile_element {directive value : Text} (hdirective : '[' ∉ directive) (content : Text) :
    compile (Template.element directive value content) =
      "<ng-container ".toList ++ directive ++ "=\"".toList ++
        (compile (value ++ ['"']) ++ '>' :: (compile content ++ Template.closing)) := by
  have hfront : '[' ∉ "<ng-container ".toList ++ directive ++ "=\"".toList :=
    List.not_mem_append (List.not_mem_append (by decide) hdirective) (by decide)
  have hclosing : '[' ∉ Template.closing := by decide
  have hangle : ∀ rest : Text, compile ('>' :: rest) = '>' :: compile rest := fun rest => by
    have hsingle : '[' ∉ ['>'] := by decide
    exact compile_append_of_not_mem hsingle rest
  have hend : compile ('<' :: "/ng-container>".toList) = Template.closing := by
    have hkept := compile_append_of_not_mem hclosing []
    rw [List.append_nil] at hkept
    exact hkept.trans (List.append_nil _)
  have hopening := compile_append_cons (c := '>') (by decide) (by decide)
  have hcontent := compile_append_cons (c := '<') (by decide) (by decide)
  have hclose : Template.closing = '<' :: "/ng-container>".toList := rfl
  rw [element_eq, compile_append_of_not_mem hfront, hopening, hangle, hclose, hcontent, hend, ← hclose]

end FlowTemplate.PropertyBinding
