/-
What the operations on text do to a text that is put together from parts: literals read at the
front, cuts at a character, slices by offset, and blanks trimmed from the ends.
-/
import FlowTemplate.Block
import FlowTemplate.Identifier
import Mathlib.Data.List.DropRight
import Mathlib.Data.List.Infix

namespace FlowTemplate

namespace Text

/-! ## Literals and cuts -/

theorem after?_eq_some_iff {literal text rest : Text} :
    after? literal text = some rest ↔ text = literal ++ rest := by
  rw [after?, List.isPrefixOf?_eq_some_iff_append_eq, eq_comm]

@[simp] theorem after?_append (literal rest : Text) : after? literal (literal ++ rest) = some rest :=
  after?_eq_some_iff.2 rfl

theorem after?_suffix {literal text rest : Text} (h : after? literal text = some rest) :
    rest <:+ text := ⟨literal, (after?_eq_some_iff.1 h).symm⟩

theorem cut_append_cons {c : Char} {before : Text} (after : Text) (h : c ∉ before) :
    cut c (before ++ c :: after) = (before, some after) := by
  induction before with
  | nil => simp [cut]
  | cons x xs ih =>
    simp only [List.mem_cons, not_or] at h
    simp [cut, Ne.symm h.1, ih h.2]

theorem cut_of_not_mem {c : Char} {text : Text} (h : c ∉ text) : cut c text = (text, none) := by
  induction text with
  | nil => rfl
  | cons x xs ih =>
    simp only [List.mem_cons, not_or] at h
    simp [cut, Ne.symm h.1, ih h.2]

theorem first_unique {c : Char} {a b x y : Text} (ha : c ∉ a) (hx : c ∉ x)
    (h : a ++ c :: b = x ++ c :: y) : a = x ∧ b = y := by
  have hcut := cut_append_cons b ha
  rw [h, cut_append_cons y hx, Prod.mk.injEq, Option.some.injEq] at hcut
  exact ⟨hcut.1.symm, hcut.2.symm⟩

theorem first_eq {c d : Char} {a b x y : Text} (ha : d ∉ a) (hx : c ∉ x)
    (h : a ++ c :: b = x ++ d :: y) : c = d := by
  rcases List.append_eq_append_iff.1 h with ⟨more, rfl, hmore⟩ | ⟨more, rfl, hmore⟩
  · cases more with
    | nil => exact (List.cons.inj hmore).1
    | cons e more =>
      obtain ⟨rfl, -⟩ := List.cons.inj hmore
      exact absurd (List.mem_append_right _ List.mem_cons_self) hx
  · cases more with
    | nil => exact (List.cons.inj hmore).1.symm
    | cons e more =>
      obtain ⟨rfl, -⟩ := List.cons.inj hmore
      exact absurd (List.mem_append_right _ List.mem_cons_self) ha

theorem cut_eq_some {c : Char} {text before after : Text} (h : cut c text = (before, some after)) :
    text = before ++ c :: after ∧ c ∉ before := by
  induction text generalizing before with
  | nil => simp [cut] at h
  | cons x xs ih =>
    rw [cut] at h
    split at h
    · next hx =>
      simp only [Prod.mk.injEq, Option.some.injEq] at h
      obtain ⟨rfl, rfl⟩ := h
      exact ⟨by rw [hx]; rfl, List.not_mem_nil⟩
    · next hx =>
      simp only [Prod.mk.injEq] at h
      obtain ⟨rfl, h⟩ := h
      obtain ⟨htext, hfree⟩ := ih (Prod.ext rfl h)
      refine ⟨by rw [List.cons_append, ← htext], ?_⟩
      simp only [List.mem_cons, not_or]
      exact ⟨Ne.symm hx, hfree⟩

/-! ## Slices -/

@[simp] theorem slice_append (pre text : Text) (start stop : Nat) :
    (pre ++ text).slice (pre.length + start) (pre.length + stop) = text.slice start stop := by
  rw [slice, List.take_length_add_append, List.drop_length_add_append, slice]

theorem slice_zero (text : Text) (stop : Nat) : text.slice 0 stop = text.take stop := rfl

theorem slice_middle (pre middle rest : Text) :
    (pre ++ (middle ++ rest)).slice pre.length (pre.length + middle.length) = middle := by
  simpa [slice] using slice_append pre (middle ++ rest) 0 middle.length

/-! ## Blanks -/

/-- The code points of the blanks. -/
def blankCodes : List Nat :=
  [0x09, 0x0A, 0x0B, 0x0C, 0x0D, 0x1C, 0x1D, 0x1E, 0x1F, 0x20, 0x85, 0xA0, 0x1680, 0x2000, 0x2001,
    0x2002, 0x2003, 0x2004, 0x2005, 0x2006, 0x2007, 0x2008, 0x2009, 0x200A, 0x2028, 0x2029, 0x202F,
    0x205F, 0x3000]

theorem isBlank_iff {c : Char} : isBlank c = true ↔ c.toNat ∈ blankCodes := by
  simp only [isBlank, blankCodes, Bool.or_eq_true, Bool.and_eq_true, decide_eq_true_eq, beq_iff_eq,
    List.mem_cons, List.not_mem_nil, or_false]
  omega

theorem continuesName_of_isBlank {c : Char} (h : isBlank c = true) : continuesName c = false := by
  have key : ∀ n ∈ blankCodes, continuesName (Char.ofNat n) = false := by decide +kernel
  have := key c.toNat (isBlank_iff.1 h)
  rwa [Char.ofNat_toNat] at this

/-- A text of blanks only. -/
def Blank (text : Text) : Prop := ∀ c ∈ text, isBlank c = true

instance {text : Text} : Decidable text.Blank :=
  decidable_of_iff (text.all isBlank = true) List.all_eq_true

theorem Blank.nil : Blank [] := by simp [Blank]

theorem Blank.append {a b : Text} (ha : a.Blank) (hb : b.Blank) : (a ++ b).Blank := fun c hc =>
  (List.mem_append.1 hc).elim (ha c) (hb c)

theorem Blank.not_mem {text : Text} (h : text.Blank) {c : Char} (hc : isBlank c = false) :
    c ∉ text := fun hm => by
  have := h c hm
  rw [hc] at this
  exact Bool.noConfusion this

theorem Blank.trimStart_append {blanks : Text} (h : blanks.Blank) (text : Text) :
    (blanks ++ text).trimStart = text.trimStart := List.dropWhile_append_of_pos h

theorem trimStart_of_head {text : Text} (h : ∀ c ∈ text.head?, isBlank c = false) :
    text.trimStart = text := by
  cases text with
  | nil => rfl
  | cons c cs => exact List.dropWhile_cons_of_neg (by simpa using h c rfl)

theorem exists_blank_append_trimStart (text : Text) :
    ∃ blanks : Text, blanks.Blank ∧ text = blanks ++ text.trimStart :=
  ⟨text.takeWhile isBlank, fun _ hc => List.mem_takeWhile_imp hc,
    List.takeWhile_append_dropWhile.symm⟩

theorem head_trimStart (text : Text) : ∀ c ∈ text.trimStart.head?, isBlank c = false := by
  intro c hc
  have := List.head?_dropWhile_not isBlank text
  rw [trimStart] at hc
  simpa [Option.mem_def.1 hc] using this

theorem afterBlanks?_append {blanks : Text} (h : blanks.Blank) (hne : blanks ≠ []) (text : Text) :
    afterBlanks? (blanks ++ text) = some text.trimStart := by
  cases blanks with
  | nil => exact absurd rfl hne
  | cons c cs =>
    have hcs : Blank cs := fun d hd => h d (List.mem_cons_of_mem _ hd)
    rw [List.cons_append, afterBlanks?, if_pos (h c List.mem_cons_self), hcs.trimStart_append]

theorem afterBlanks?_eq_some {text rest : Text} (h : afterBlanks? text = some rest) :
    ∃ blanks : Text, blanks.Blank ∧ blanks ≠ [] ∧ text = blanks ++ rest := by
  cases text with
  | nil => simp [afterBlanks?] at h
  | cons c cs =>
    rw [afterBlanks?] at h
    split at h
    · next hc =>
      simp only [Option.some.injEq] at h
      subst h
      obtain ⟨blanks, hb, hcs⟩ := exists_blank_append_trimStart cs
      refine ⟨c :: blanks, ?_, List.cons_ne_nil _ _, by rw [List.cons_append, ← hcs]⟩
      intro d hd
      rcases List.mem_cons.1 hd with rfl | hd
      · exact hc
      · exact hb d hd
    · cases h

theorem afterBlanks?_eq_trimStart {text rest : Text} (h : afterBlanks? text = some rest) :
    rest = text.trimStart := by
  cases text with
  | nil => simp [afterBlanks?] at h
  | cons c cs =>
    rw [afterBlanks?] at h
    split at h
    next hc =>
      cases h
      exact (List.dropWhile_cons_of_pos hc).symm
    next => cases h

theorem trimStart_suffix (text : Text) : text.trimStart <:+ text := List.dropWhile_suffix _

theorem afterBlanks?_suffix {text rest : Text} (h : afterBlanks? text = some rest) :
    rest <:+ text := by
  obtain ⟨blanks, -, -, rfl⟩ := afterBlanks?_eq_some h
  exact List.suffix_append _ _

/-! ## Trimming -/

theorem trimEnd_append_blank {blanks : Text} (h : blanks.Blank) (text : Text) :
    (text ++ blanks).trimEnd = text.trimEnd := by
  rw [trimEnd, List.reverse_append, List.dropWhile_append_of_pos, trimEnd]
  exact fun c hc => h c (List.mem_reverse.1 hc)

theorem trimEnd_of_last {text : Text} (h : ∀ c ∈ text.getLast?, isBlank c = false) :
    text.trimEnd = text := by
  refine List.rdropWhile_eq_self_iff.2 fun hne => ?_
  have := h (text.getLast hne) (List.getLast?_eq_getLast_of_ne_nil hne)
  simp [this]

theorem trim_eq_self_iff {text : Text} :
    text.trim = text ↔
      (∀ c ∈ text.head?, isBlank c = false) ∧ ∀ c ∈ text.getLast?, isBlank c = false := by
  constructor
  · intro h
    have hs : text.trimStart = text := by
      obtain ⟨blanks, hb, htext⟩ := exists_blank_append_trimStart text
      have hle : text.length ≤ text.trimStart.length := by
        conv_lhs => rw [← h]
        exact (List.rdropWhile_prefix isBlank (l := text.trimStart)).length_le
      have hlen := congrArg List.length htext
      rw [List.length_append] at hlen
      obtain rfl : blanks = [] := List.length_eq_zero_iff.1 (by omega)
      exact htext.symm
    rw [trim, hs] at h
    refine ⟨by rw [← hs]; exact head_trimStart text, fun c hc => ?_⟩
    have hne : text ≠ [] := by rintro rfl; simp at hc
    have := List.rdropWhile_eq_self_iff.1 h hne
    rw [List.getLast?_eq_getLast_of_ne_nil hne, Option.mem_some] at hc
    simpa [hc] using this
  · rintro ⟨hh, hl⟩
    rw [trim, trimStart_of_head hh, trimEnd_of_last hl]

theorem exists_blanks_trim (text : Text) :
    ∃ before after : Text, before.Blank ∧ after.Blank ∧ text = before ++ (text.trim ++ after) := by
  obtain ⟨before, hbefore, htext⟩ := exists_blank_append_trimStart text
  refine ⟨before, (text.trimStart.reverse.takeWhile isBlank).reverse, hbefore, ?_, ?_⟩
  · exact fun c hc => List.mem_takeWhile_imp (List.mem_reverse.1 hc)
  · rw [trim, trimEnd, ← List.reverse_append, List.takeWhile_append_dropWhile, List.reverse_reverse]
    exact htext

theorem mem_of_mem_trim {text : Text} {c : Char} (h : c ∈ text.trim) : c ∈ text := by
  obtain ⟨before, after, -, -, htext⟩ := exists_blanks_trim text
  rw [htext]
  exact List.mem_append_right _ (List.mem_append_left _ h)

theorem head_trim (text : Text) : ∀ c ∈ text.trim.head?, isBlank c = false := by
  intro c hc
  obtain ⟨cs, hcs⟩ := List.head?_eq_some_iff.1 (Option.mem_def.1 hc)
  obtain ⟨more, hmore⟩ := List.rdropWhile_prefix isBlank (l := text.trimStart)
  refine head_trimStart text c ?_
  rw [← hmore, show text.trimStart.rdropWhile isBlank = c :: cs from hcs]
  rfl

theorem Blank.of_trim {text : Text} (h : text.trim = []) : text.Blank := by
  obtain ⟨before, after, hbefore, hafter, htext⟩ := exists_blanks_trim text
  rw [htext, h, List.nil_append]
  exact hbefore.append hafter

theorem last_trim (text : Text) : ∀ c ∈ text.trim.getLast?, isBlank c = false := by
  intro c hc
  obtain ⟨hne, rfl⟩ := List.mem_getLast?_eq_getLast hc
  exact Bool.eq_false_iff.2 (List.rdropWhile_last_not isBlank text.trimStart hne)

theorem trim_ne_nil_of_suffix {text back : Text} (h : back <:+ text.trim) (hne : back ≠ []) :
    back.trim ≠ [] := by
  intro hnil
  obtain ⟨front, hfront⟩ := h
  have hlast := last_trim text (back.getLast hne)
  rw [← hfront, List.getLast?_append_of_ne_nil _ hne] at hlast
  have hblank := Blank.of_trim hnil _ (List.getLast_mem hne)
  rw [hlast (List.getLast?_eq_getLast_of_ne_nil hne)] at hblank
  cases hblank

theorem trim_trim (text : Text) : text.trim.trim = text.trim :=
  trim_eq_self_iff.2 ⟨head_trim text, last_trim text⟩

theorem trim_pad {a text b : Text} (ha : a.Blank) (hb : b.Blank) (h : text.trim = text) :
    (a ++ (text ++ b)).trim = text := by
  obtain ⟨hh, hl⟩ := trim_eq_self_iff.1 h
  rw [trim, ha.trimStart_append]
  cases text with
  | nil =>
    rw [List.nil_append, ← List.append_nil b, hb.trimStart_append]
    rfl
  | cons c cs =>
    rw [trimStart_of_head (by simpa using hh), trimEnd_append_blank hb, trimEnd_of_last hl]

theorem trim_append_blank {blanks : Text} (h : blanks.Blank) (text : Text) :
    (text ++ blanks).trim = text.trim := by
  rw [trim, trimStart, List.dropWhile_append]
  split
  next hempty =>
    have hstart : text.trimStart = [] := List.isEmpty_iff.1 hempty
    have hblanks : blanks.dropWhile isBlank = [] := List.dropWhile_eq_nil_iff.2 h
    rw [hblanks, trim, hstart]
  next => exact trimEnd_append_blank h _

theorem trim_append_of_ends {a b : Text} (ha : a.trim = a) (hb : b.trim = b) (hane : a ≠ [])
    (hbne : b ≠ []) (middle : Text) : (a ++ (middle ++ b)).trim = a ++ (middle ++ b) := by
  obtain ⟨x, xs, rfl⟩ := List.exists_cons_of_ne_nil hane
  refine trim_eq_self_iff.2 ⟨by simpa using (trim_eq_self_iff.1 ha).1, ?_⟩
  have hlast : (x :: xs ++ (middle ++ b)).getLast? = b.getLast? := by
    rw [← List.append_assoc, List.getLast?_append_of_ne_nil _ hbne]
  rw [hlast]
  exact (trim_eq_self_iff.1 hb).2

/-! ## Texts in texts -/

theorem infix_append_cons {w a b : Text} {c : Char} (h : w <:+: a ++ c :: b) :
    w <:+: a ∨ w <:+: b ∨ ∃ front back, w = front ++ c :: back ∧ back <+: b := by
  obtain ⟨before, after, heq⟩ := h
  rcases List.append_eq_append_iff.1 heq with ⟨left, rfl, -⟩ | ⟨left, hleft, hright⟩
  · exact .inl ⟨before, left, rfl⟩
  cases left with
  | nil => exact .inl ⟨before, [], by rw [List.append_nil, hleft, List.append_nil]⟩
  | cons d left =>
    obtain ⟨rfl, rfl⟩ := List.cons.inj hright
    rcases List.append_eq_append_iff.1 hleft with ⟨inside, rfl, rfl⟩ | ⟨inside, rfl, hw⟩
    · exact .inr (.inr ⟨inside, left, rfl, List.prefix_append _ _⟩)
    · cases inside with
      | nil => exact .inr (.inr ⟨[], left, hw.symm, List.prefix_append _ _⟩)
      | cons e inside =>
        obtain ⟨rfl, rfl⟩ := List.cons.inj hw
        exact .inr (.inl ⟨inside, after, by simp⟩)

theorem infix_of_append {w a b : Text} (hne : w ≠ []) (hw : ∀ d ∈ w.head?, d ∉ a) (h : w <:+: a ++ b) :
    w <:+: b := by
  obtain ⟨d, cs, rfl⟩ := List.exists_cons_of_ne_nil hne
  have hd : d ∉ a := hw d rfl
  induction a with
  | nil => exact h
  | cons c a ih =>
    simp only [List.mem_cons, not_or] at hd
    rw [List.cons_append, List.infix_cons_iff] at h
    rcases h with ⟨rest, hrest⟩ | hinside
    · exact absurd (List.cons.inj hrest).1 hd.1
    · exact ih (fun e he => by cases he; exact hd.2) hinside hd.2

theorem not_infix_append_cons {w a b : Text} {c : Char} (hc : c ∉ w) (ha : ¬ w <:+: a) (hb : ¬ w <:+: b) :
    ¬ w <:+: a ++ c :: b := by
  intro h
  rcases infix_append_cons h with hfound | hfound | ⟨front, back, rfl, -⟩
  · exact ha hfound
  · exact hb hfound
  · exact hc (List.mem_append_right _ List.mem_cons_self)

end Text

end FlowTemplate
