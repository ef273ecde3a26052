/-
How property bindings are spelled. A hyphen stands before exactly the capitals that follow a small
letter (`hyphenate_eq_flatMap`), which is also what a replacement of such pairs from left to right
gives, since no letter is the second of one pair and the first of the next (`hyphenate_eq_replace`). A
template that was compiled has no binding that is spelled otherwise (`compile_spelling`).
-/
import Mathlib
import FlowTemplate.Proofs.PropertyBinding

namespace FlowTemplate

namespace Segment

variable {α : Type} {read : Recogniser α} {onHit : α → Text → Text}

/-- What the result begins with before the first occurrence was there before. -/
theorem prefix_of_prefix_rewrite {c : Char} (hread : read.Consumes)
    (hhit : ∀ value w rest, read (w ++ rest) = some (value, rest) → (onHit value w).head? = some c)
    {text front : Text} (hfree : c ∉ front) (h : front <+: rewrite read onHit text) : front <+: text := by
  induction text using reading hread generalizing front with
  | nil => exact h
  | gap d cs hnone ih =>
    rw [rewrite_cons hnone] at h
    rcases List.prefix_cons_iff.1 h with rfl | ⟨front, rfl, hfront⟩
    · exact List.nil_prefix
    · exact List.cons_prefix_cons.2 ⟨rfl, ih (fun hm => hfree (List.mem_cons_of_mem d hm)) hfront⟩
  | hit value w rest hw hsome ih =>
    obtain ⟨more, hmore⟩ := List.head?_eq_some_iff.1 (hhit value w rest hsome)
    rw [rewrite_hit hw hsome, hmore, List.cons_append] at h
    rcases List.prefix_cons_iff.1 h with rfl | ⟨front, rfl, -⟩
    · exact List.nil_prefix
    · exact absurd List.mem_cons_self hfree

end Segment

/-! ## Letters and digits -/

theorem Text.lower_of_ascii {text : Text} (h : ∀ c ∈ text, c.toNat < 0x80) :
    text.lower = text.map Char.toLower := by
  have hfrom : ∀ before, lowerFrom before text = text.map Char.toLower := by
    induction text with
    | nil => exact fun _ => rfl
    | cons c cs ih =>
      obtain ⟨hc, hcs⟩ := List.forall_mem_cons.1 h
      have hsigma : c ≠ 'Σ' := by rintro rfl; exact absurd hc (by decide)
      have hdotted : c ≠ 'İ' := by rintro rfl; exact absurd hc (by decide)
      intro before
      rw [lowerFrom, ih hcs, lowerAt, if_neg hsigma, if_neg hdotted, lowerChar, if_pos hc]
      rfl
  exact hfrom []

theorem isAscii_of_isAlphanum {c : Char} (h : c.isAlphanum = true) : c.toNat < 0x80 := by
  simp only [Char.isAlphanum, Char.isAlpha, Char.isUpper, Char.isLower, Char.isDigit, ge_iff_le,
    Bool.or_eq_true, Bool.and_eq_true, decide_eq_true_eq, UInt32.le_iff_toNat_le] at h
  have hcode : c.toNat = c.val.toNat := rfl
  simp at h
  omega

theorem isAlphanum_toLower {c : Char} (h : c.isAlphanum = true) : c.toLower.isAlphanum = true := by
  rw [Char.isAlphanum, Bool.or_eq_true] at h ⊢
  rw [Char.isAlpha_toLower_eq_isAlpha]
  refine h.imp_right fun hdigit => ?_
  have hlower : c.toLower = c := by
    refine Char.toLower_eq_of_not_isUpper fun hupper => ?_
    simp only [Char.isUpper, Char.isDigit, Bool.and_eq_true, ge_iff_le, decide_eq_true_eq,
      UInt32.le_iff_toNat_le] at hupper hdigit
    simp at hupper hdigit
    omega
  rwa [hlower]

namespace PropertyBinding

/-! ## Hyphens -/

/-- Whether a hyphen is to stand before the character of a name at an offset: it is a capital, and the
character before it is a small letter. -/
def takesHyphen (name : Text) (offset : Nat) : Bool :=
  0 < offset && name[offset - 1]?.any Char.isLower && name[offset]?.any Char.isUpper

/-- What becomes of a character of a name and its offset when hyphens are put in. -/
def hyphenated (name : Text) (entry : Char × Nat) : Text :=
  if takesHyphen name entry.2 then ['-', entry.1] else [entry.1]

/-- A name in small letters, with a hyphen before the characters that take one. -/
def spelling (name : Text) : Text := (name.zipIdx.flatMap (hyphenated name)).map Char.toLower

theorem hyphenate_concat (name : Text) (c d : Char) :
    hyphenate (name ++ [c, d]) =
      hyphenate (name ++ [c]) ++ if c.isLower && d.isUpper then ['-', d] else [d] := by
  induction name with
  | nil => simp only [List.nil_append, hyphenate]; split <;> rfl
  | cons e name ih =>
    cases name with
    | nil => simp only [List.cons_append, List.nil_append, hyphenate]; split <;> split <;> rfl
    | cons f name =>
      simp only [List.cons_append, hyphenate] at ih ⊢
      rw [ih]
      split <;> rfl

/-- More characters behind a name do not matter to those that take a hyphen in it. -/
theorem takesHyphen_concat {name : Text} {offset : Nat} (h : offset < name.length) (d : Char) :
    takesHyphen (name ++ [d]) offset = takesHyphen name offset := by
  have hbefore : offset - 1 < name.length := Nat.lt_of_le_of_lt (Nat.sub_le _ _) h
  simp only [takesHyphen, List.getElem?_append_left h, List.getElem?_append_left hbefore]

/-- **A hyphen stands before exactly the capitals that follow a small letter.** -/
theorem hyphenate_eq_flatMap (name : Text) : hyphenate name = name.zipIdx.flatMap (hyphenated name) := by
  induction name using List.reverseRecOn with
  | nil => rfl
  | append_singleton name d ih =>
    have hfront : name.zipIdx.flatMap (hyphenated (name ++ [d])) = hyphenate name := by
      rw [ih]
      refine List.flatMap_congr fun entry hentry => ?_
      have hlt : entry.2 < name.length := by simpa using List.snd_lt_of_mem_zipIdx hentry
      rw [hyphenated, hyphenated, takesHyphen_concat hlt]
    rw [List.zipIdx_append, List.flatMap_append, hfront]
    rcases List.eq_nil_or_concat name with rfl | ⟨front, c, rfl⟩
    · rfl
    · rw [List.concat_eq_append, List.append_assoc, List.singleton_append, hyphenate_concat]
      simp [hyphenated, takesHyphen]

/-- A small letter and the capital behind it. -/
def readBoundary : Recogniser (Char × Char)
  | c :: d :: rest => if c.isLower && d.isUpper then some ((c, d), rest) else none
  | _ => none

/-- A small letter and a capital with a hyphen between them. -/
def hyphenatePair (pair : Char × Char) : Text := [pair.1, '-', pair.2]

theorem readBoundary_eq_some_iff {text rest : Text} {pair : Char × Char} :
    readBoundary text = some (pair, rest) ↔
      pair.1.isLower = true ∧ pair.2.isUpper = true ∧ text = pair.1 :: pair.2 :: rest := by
  match text with
  | [] => simp [readBoundary]
  | [c] => simp [readBoundary]
  | c :: d :: more =>
    obtain ⟨a, b⟩ := pair
    simp only [readBoundary, Option.ite_none_right_eq_some, Option.some.injEq, Prod.mk.injEq,
      Bool.and_eq_true, List.cons.injEq]
    constructor
    · rintro ⟨⟨hc, hd⟩, ⟨rfl, rfl⟩, rfl⟩
      exact ⟨hc, hd, rfl, rfl, rfl⟩
    · rintro ⟨ha, hb, rfl, rfl, rfl⟩
      exact ⟨⟨ha, hb⟩, ⟨rfl, rfl⟩, rfl⟩

theorem readBoundary_consumes : readBoundary.Consumes := by
  rintro text ⟨c, d⟩ rest h
  obtain ⟨-, -, rfl⟩ := readBoundary_eq_some_iff.1 h
  exact ⟨[c, d], List.cons_ne_nil _ _, rfl⟩

theorem hyphenate_cons_of_not {c : Char} {cs : Text} (h : readBoundary (c :: cs) = none) :
    hyphenate (c :: cs) = c :: hyphenate cs := by
  cases cs with
  | nil => rfl
  | cons d rest =>
    have hpair : ¬ (c.isLower && d.isUpper) = true := fun hpair => by simp [readBoundary, hpair] at h
    rw [hyphenate, if_neg hpair]

/-- **Replacing pairs from left to right misses none**: a capital is no small letter, so a pair never
begins with the end of another. -/
theorem hyphenate_eq_replace (name : Text) : hyphenate name = Text.replace readBoundary hyphenatePair name := by
  rw [Segment.replace_eq_rewrite]
  induction name using Segment.reading readBoundary_consumes with
  | nil => rfl
  | gap c cs hnone ih => rw [Segment.rewrite_cons hnone, hyphenate_cons_of_not hnone, ih]
  | hit pair w rest hw hsome ih =>
    obtain ⟨hlower, hupper, htext⟩ := readBoundary_eq_some_iff.1 hsome
    have hbehind : readBoundary (pair.2 :: rest) = none := by
      rw [Option.eq_none_iff_forall_not_mem]
      rintro ⟨other, more⟩ hother
      obtain ⟨hother, -, heq⟩ := readBoundary_eq_some_iff.1 hother
      exact Char.not_isLower_of_isUpper hupper ((List.cons.inj heq).1 ▸ hother)
    have hpair : (pair.1.isLower && pair.2.isUpper) = true := by rw [hlower, hupper]; rfl
    rw [Segment.rewrite_hit hw hsome, htext, hyphenate, if_pos hpair, hyphenate_cons_of_not hbehind, ih]
    rfl

/-! ## Names -/

theorem hyphenate_eq_self {name : Text} (h : ∀ c ∈ name, c.isUpper = false) : hyphenate name = name := by
  rw [hyphenate_eq_replace, Segment.replace_eq_rewrite]
  refine Segment.rewrite_of_none fun t ht => ?_
  rw [Option.eq_none_iff_forall_not_mem]
  rintro ⟨pair, rest⟩ hread
  obtain ⟨-, hupper, rfl⟩ := readBoundary_eq_some_iff.1 hread
  rw [h pair.2 (ht.subset (List.mem_cons_of_mem _ List.mem_cons_self))] at hupper
  cases hupper

theorem mem_hyphenate {name : Text} {c : Char} (h : c ∈ hyphenate name) : c = '-' ∨ c ∈ name := by
  rw [hyphenate_eq_flatMap] at h
  obtain ⟨⟨d, offset⟩, hmem, hc⟩ := List.mem_flatMap.1 h
  have hd : d ∈ name := List.fst_mem_of_mem_zipIdx hmem
  rw [hyphenated] at hc
  split at hc
  · rcases List.mem_cons.1 hc with rfl | hc
    · exact .inl rfl
    · exact .inr (List.mem_singleton.1 hc ▸ hd)
  · exact .inr (List.mem_singleton.1 hc ▸ hd)

theorem ValidName.kebab_eq {name : Text} (h : ValidName name) : kebab name = (hyphenate name).map Char.toLower := by
  refine Text.lower_of_ascii fun c hc => ?_
  rcases mem_hyphenate hc with rfl | hc
  · decide
  · exact isAscii_of_isAlphanum (h.alphanum hc)

theorem ValidName.kebab_eq_spelling {name : Text} (h : ValidName name) : kebab name = spelling name := by
  rw [h.kebab_eq, hyphenate_eq_flatMap, spelling]

/-- A name has no hyphen, so all those in its spelling were put in. -/
theorem ValidName.filter_kebab {name : Text} (h : ValidName name) :
    (kebab name).filter (· ≠ '-') = name.map Char.toLower := by
  have hkept : ∀ entry ∈ name.zipIdx, ((hyphenated name entry).map Char.toLower).filter (· ≠ '-') =
      [entry.1.toLower] := by
    rintro ⟨c, offset⟩ hentry
    have hc := isAlphanum_toLower (h.alphanum (List.fst_mem_of_mem_zipIdx hentry))
    have hne : c.toLower ≠ '-' := fun heq => by rw [heq] at hc; cases hc
    rw [hyphenated]
    split <;> simp [hne]
  rw [h.kebab_eq, hyphenate_eq_flatMap, List.map_flatMap, List.filter_flatMap, List.flatMap_congr hkept,
    ← List.map_eq_flatMap]
  conv_rhs => rw [← List.zipIdx_map_fst 0 name, List.map_map]
  rfl

theorem kebab_not_mem {name : Text} (h : ValidName name) {c : Char} (hc : c.isAlphanum = false)
    (hhyphen : c ≠ '-') : c ∉ kebab name := by
  rw [h.kebab_eq]
  intro hm
  obtain ⟨d, hd, rfl⟩ := List.mem_map.1 hm
  rcases mem_hyphenate hd with rfl | hd
  · exact hhyphen (by decide)
  · rw [isAlphanum_toLower (h.alphanum hd)] at hc
    cases hc

theorem ValidName.kebab_kebab {name : Text} (h : ValidName name) (hagain : ValidName (kebab name)) :
    kebab (kebab name) = kebab name := by
  have hsmall : ∀ c ∈ kebab name, c.isUpper = false := by
    rw [h.kebab_eq]
    intro c hc
    obtain ⟨d, -, rfl⟩ := List.mem_map.1 hc
    exact Char.isUpper_toLower_eq_false d
  rw [hagain.kebab_eq, hyphenate_eq_self hsmall]
  refine (List.map_congr_left fun c hc => ?_).trans (List.map_id _)
  exact Char.toLower_eq_of_not_isUpper (by rw [hsmall c hc]; exact Bool.false_ne_true)

/-! ## Templates -/

theorem readBinding_reads : readBinding.Reads fun name w => ValidName name ∧ w = binding name := by
  intro text name rest
  rw [readBinding_eq_some_iff]
  constructor
  · rintro ⟨hname, rfl⟩
    exact ⟨binding name, ⟨hname, rfl⟩, rfl⟩
  · rintro ⟨_, ⟨hname, rfl⟩, rfl⟩
    exact ⟨hname, rfl⟩

/-- **A spelled binding is left as it is.** With a hyphen in its name it is no binding any more, and
without one its name is spelled as it stands. -/
theorem compile_spell_append {name : Text} (h : ValidName name) (rest : Text) :
    compile (spell name ++ rest) = spell name ++ compile rest := by
  have hshape : ∀ more : Text, spell name ++ more = '[' :: (kebab name ++ "]=\"".toList ++ more) := fun more => by
    simp [spell]
  have hopen : '[' ∉ kebab name ++ "]=\"".toList :=
    List.not_mem_append (kebab_not_mem h (by decide) (by decide)) (by decide)
  cases hread : readBinding (spell name ++ rest) with
  | none =>
    rw [hshape] at hread
    rw [compile_eq_rewrite, hshape, Segment.rewrite_cons hread, ← compile_eq_rewrite,
      compile_append_of_not_mem hopen, hshape]
  | some result =>
    obtain ⟨again, left⟩ := result
    obtain ⟨hagain, htext⟩ := readBinding_eq_some_iff.1 hread
    have hclose : ∀ more : Text, "]=\"".toList ++ more = ']' :: ("=\"".toList ++ more) := fun _ => rfl
    have hcut : kebab name = again ∧ "=\"".toList ++ rest = "=\"".toList ++ left := by
      rw [hshape, binding, List.cons_append, List.append_assoc, List.append_assoc, hclose, hclose] at htext
      refine Text.first_unique (kebab_not_mem h (by decide) (by decide)) (fun hm => ?_) (List.cons.inj htext).2
      exact absurd (hagain.alphanum hm) (by decide)
    obtain ⟨rfl, hrest⟩ := hcut
    obtain rfl := List.append_cancel_left hrest
    have hspelled : spell (kebab name) = spell name := by rw [spell, spell, h.kebab_kebab hagain]
    have hcompiled : compile (spell name ++ rest) = spell (kebab name) ++ compile rest :=
      Segment.replace_of_read readBinding_consumes hread
    rw [hcompiled, hspelled]

theorem compile_compile (template : Text) : compile (compile template) = compile template := by
  have hhead : ∀ name w rest, readBinding (w ++ rest) = some (name, rest) → (spell name).head? = some '[' :=
    fun _ _ _ _ => rfl
  induction template using Segment.reading readBinding_consumes with
  | nil => rfl
  | gap c cs hnone ih =>
    have hcompiled : compile (c :: cs) = c :: compile cs := by
      rw [compile_eq_rewrite, Segment.rewrite_cons hnone, ← compile_eq_rewrite]
    -- A binding that begins here would have been one before: it has no bracket that opens behind it.
    have hstill : readBinding (c :: compile cs) = none := by
      rw [Option.eq_none_iff_forall_not_mem]
      rintro ⟨name, rest⟩ hread
      obtain ⟨hname, htext⟩ := readBinding_eq_some_iff.1 hread
      obtain ⟨rfl, htail⟩ := List.cons.inj htext
      have hfree : '[' ∉ name ++ "]=\"".toList :=
        List.not_mem_append (fun hm => absurd (hname.alphanum hm) (by decide)) (by decide)
      have hfront : name ++ "]=\"".toList <+: Segment.rewrite readBinding (fun name _ => spell name) cs :=
        ⟨rest, by rw [← compile_eq_rewrite, htail]; rfl⟩
      obtain ⟨left, rfl⟩ := Segment.prefix_of_prefix_rewrite readBinding_consumes hhead hfree hfront
      have hbefore : readBinding ('[' :: (name ++ "]=\"".toList ++ left)) = some (name, left) :=
        readBinding_eq_some_iff.2 ⟨hname, rfl⟩
      rw [hnone] at hbefore
      cases hbefore
    rw [hcompiled, compile_eq_rewrite, Segment.rewrite_cons hstill, ← compile_eq_rewrite, ih]
  | hit name w rest hw hsome ih =>
    obtain ⟨hname, -⟩ := readBinding_eq_some_iff.1 hsome
    have hcompiled : compile (w ++ rest) = spell name ++ compile rest :=
      Segment.replace_of_read readBinding_consumes hsome
    rw [hcompiled, compile_spell_append hname, ih]

/-- **Property bindings are spelled out and nothing else is changed.** A template is cut at the leftmost
property bindings, and in each of them the name is put into small letters with a hyphen before every
capital that follows a small letter; without these hyphens it has the letters of the name. A template
that was compiled stays as it is. -/
theorem compile_spelling (template : Text) :
    (∃ segments : List (Segment Text),
      Segment.IsCut (fun name w => ValidName name ∧ w = '[' :: (name ++ "]=\"".toList)) template segments ∧
      compile template = segments.flatMap
        (Segment.replacement fun name _ => '[' :: (spelling name ++ "]=\"".toList)) ∧
      ∀ name w, Segment.hit name w ∈ segments →
        ((spelling name).filter (· ≠ '-')).map Char.toLower = name.map Char.toLower) ∧
    compile (compile template) = compile template := by
  have hcut := Segment.isCut_ofText readBinding_reads (fun _ _ h => h.2 ▸ List.cons_ne_nil _ _) template
  have hname : ∀ name w, Segment.hit name w ∈ Segment.ofText readBinding template → ValidName name := by
    intro name w hmem
    obtain ⟨front, rest, -, hread⟩ := Segment.of_hit_mem readBinding_consumes hmem
    exact (readBinding_eq_some_iff.1 hread).1
  refine ⟨⟨_, hcut, ?_, fun name w hmem => ?_⟩, compile_compile template⟩
  · rw [compile_eq_rewrite, Segment.rewrite]
    refine List.flatMap_congr fun segment hmem => ?_
    cases segment with
    | gap text => rfl
    | hit name w =>
      rw [Segment.replacement, Segment.replacement, ← (hname name w hmem).kebab_eq_spelling]
      rfl
  · rw [← (hname name w hmem).kebab_eq_spelling, (hname name w hmem).filter_kebab, List.map_map]
    exact List.map_congr_left fun c _ => Char.toLower_toLower_eq_toLower c

end PropertyBinding

end FlowTemplate
