/-
Balanced texts, and where a group closes. A text is balanced in one kind of delimiter if it opens as
often as it closes and no front of it closes more than it opened; delimiters of the other kind are
text. `closingOffset?_eq_some_iff` says what the scan for the end of a group finds: the first closer
before which everything that was opened is closed again. Texts are also compared by the level they
lead to (`level?`), which composes.
-/
import FlowTemplate.Delimiter
import Mathlib.Data.List.Infix

namespace FlowTemplate.Delimiter

variable {kind : Delimiter} {depth : Nat}

@[simp] theorem opener_ne_closer : kind.opener ≠ kind.closer := by cases kind <;> decide

@[simp] theorem closer_ne_opener : kind.closer ≠ kind.opener := opener_ne_closer.symm

/-- A text that closes all it opens, and closes nothing before it is opened. -/
structure Balanced (kind : Delimiter) (text : Text) : Prop where
  closed : text.count kind.closer = text.count kind.opener
  never_below : ∀ front, front <+: text → front.count kind.closer ≤ front.count kind.opener

/-- A text all along which a group stays open, where `depth` levels are open before it. -/
def StaysOpen (kind : Delimiter) (depth : Nat) (text : Text) : Prop :=
  ∀ front, front <+: text → front.count kind.closer < depth + front.count kind.opener

theorem balanced_iff {text : Text} :
    kind.Balanced text ↔
      kind.StaysOpen 1 text ∧ text.count kind.closer = text.count kind.opener := by
  constructor
  · intro h
    exact ⟨fun front hf => by have := h.never_below front hf; omega, h.closed⟩
  · rintro ⟨hs, hc⟩
    exact ⟨hc, fun front hf => by have := hs front hf; omega⟩

instance {text : Text} : Decidable (kind.Balanced text) :=
  decidable_of_iff
    (text.count kind.closer = text.count kind.opener ∧
      ∀ front ∈ text.inits, front.count kind.closer ≤ front.count kind.opener)
    ⟨fun h => ⟨h.1, fun front hf => h.2 front ((List.mem_inits _ _).2 hf)⟩,
      fun h => ⟨h.closed, fun front hf => h.never_below front ((List.mem_inits _ _).1 hf)⟩⟩

/-! ## Groups that stay open -/

/-- The levels that are open behind a character. -/
def levelAfter (kind : Delimiter) (depth : Nat) (c : Char) : Nat :=
  if c = kind.opener then depth + 1 else if c = kind.closer then depth - 1 else depth

/-- One more character in front moves the level by what that character counts. -/
theorem levelAfter_add_count (kind : Delimiter) (c : Char) (cs : Text) (h : 0 < depth) :
    kind.levelAfter depth c + cs.count kind.opener + (c :: cs).count kind.closer =
      depth + (c :: cs).count kind.opener + cs.count kind.closer := by
  unfold levelAfter
  by_cases ho : c = kind.opener
  · subst ho; simp; omega
  · by_cases hc : c = kind.closer
    · subst hc; simp; omega
    · simp [ho, hc]

theorem levelAfter_add (below : Nat) (c : Char) (h : 0 < depth) :
    kind.levelAfter (below + depth) c = below + kind.levelAfter depth c := by
  unfold levelAfter
  split
  · omega
  · split <;> omega

theorem levelAfter_pos {c : Char} (hd : 0 < depth) (h : ¬ (c = kind.closer ∧ depth ≤ 1)) :
    0 < kind.levelAfter depth c := by
  unfold levelAfter
  split
  · omega
  · split
    · next hc => have : ¬ depth ≤ 1 := fun hle => h ⟨hc, hle⟩; omega
    · exact hd

theorem count_cons_lt_iff {c : Char} {cs : Text} (h : 0 < depth) :
    (c :: cs).count kind.closer < depth + (c :: cs).count kind.opener ↔
      cs.count kind.closer < kind.levelAfter depth c + cs.count kind.opener := by
  have := levelAfter_add_count kind c cs h
  omega

@[simp] theorem staysOpen_nil : kind.StaysOpen depth [] ↔ 0 < depth := by
  simp [StaysOpen]

theorem staysOpen_cons {c : Char} {cs : Text} :
    kind.StaysOpen depth (c :: cs) ↔
      0 < depth ∧ kind.StaysOpen (kind.levelAfter depth c) cs := by
  constructor
  · intro h
    have hd : 0 < depth := by simpa using h [] List.nil_prefix
    refine ⟨hd, fun front hf => ?_⟩
    exact (count_cons_lt_iff hd).1 (h (c :: front) (List.cons_prefix_cons.2 ⟨rfl, hf⟩))
  · rintro ⟨hd, h⟩ front hf
    rcases List.prefix_cons_iff.1 hf with rfl | ⟨more, rfl, hm⟩
    · simpa using hd
    · exact (count_cons_lt_iff hd).2 (h more hm)

theorem StaysOpen.mono {deeper : Nat} {text : Text} (h : kind.StaysOpen depth text)
    (hd : depth ≤ deeper) : kind.StaysOpen deeper text := fun front hf => by
  have := h front hf
  omega

theorem StaysOpen.levels {text : Text} (h : kind.StaysOpen depth text) :
    text.count kind.closer < depth + text.count kind.opener := h text (List.prefix_refl text)

theorem staysOpen_append {a b : Text} :
    kind.StaysOpen depth (a ++ b) ↔
      kind.StaysOpen depth a ∧
        kind.StaysOpen (depth + a.count kind.opener - a.count kind.closer) b := by
  induction a generalizing depth with
  | nil =>
    simp only [List.nil_append, staysOpen_nil, List.count_nil, Nat.add_zero, Nat.sub_zero]
    exact ⟨fun h => ⟨by have := h.levels; have := h [] List.nil_prefix; simpa using this, h⟩, (·.2)⟩
  | cons c cs ih =>
    rw [List.cons_append, staysOpen_cons, staysOpen_cons, ih, and_assoc]
    refine and_congr_right fun hd => and_congr_right fun hs => ?_
    have hlevel : kind.levelAfter depth c + cs.count kind.opener - cs.count kind.closer =
        depth + (c :: cs).count kind.opener - (c :: cs).count kind.closer := by
      have := levelAfter_add_count kind c cs hd
      omega
    rw [hlevel]

/-! ## Balanced texts put together -/

@[simp] theorem Balanced.nil : kind.Balanced [] := balanced_iff.2 (by simp)

theorem Balanced.append {a b : Text} (ha : kind.Balanced a) (hb : kind.Balanced b) :
    kind.Balanced (a ++ b) := by
  obtain ⟨ha, hac⟩ := balanced_iff.1 ha
  obtain ⟨hb, hbc⟩ := balanced_iff.1 hb
  refine balanced_iff.2 ⟨staysOpen_append.2 ⟨ha, ?_⟩, by simp [List.count_append, hac, hbc]⟩
  rwa [hac, Nat.add_sub_cancel]

theorem Balanced.of_free {text : Text} (ho : kind.opener ∉ text) (hc : kind.closer ∉ text) :
    kind.Balanced text where
  closed := by rw [List.count_eq_zero_of_not_mem ho, List.count_eq_zero_of_not_mem hc]
  never_below front hf := by
    rw [List.count_eq_zero_of_not_mem fun h => hc (hf.subset h)]
    exact Nat.zero_le _

theorem Balanced.group {text : Text} (h : kind.Balanced text) :
    kind.Balanced (kind.opener :: (text ++ [kind.closer])) := by
  obtain ⟨hs, hc⟩ := balanced_iff.1 h
  refine balanced_iff.2 ⟨staysOpen_cons.2 ⟨Nat.one_pos, ?_⟩, by simp [hc]⟩
  have hl : kind.levelAfter 1 kind.opener = 2 := by simp [levelAfter]
  rw [hl, staysOpen_append, hc, Nat.add_sub_cancel, staysOpen_cons]
  refine ⟨hs.mono (by omega), by omega, ?_⟩
  simp [levelAfter]

/-! ## The end of a group -/

theorem closingOffset?_cons {c : Char} {cs : Text} :
    kind.closingOffset? depth (c :: cs) =
      if c = kind.closer ∧ depth ≤ 1 then some 0
      else (kind.closingOffset? (kind.levelAfter depth c) cs).map (· + 1) := by
  rw [closingOffset?, levelAfter]
  by_cases ho : c = kind.opener
  · simp [ho]
  · by_cases hc : c = kind.closer
    · by_cases hd : depth ≤ 1 <;> simp [hc, hd]
    · simp [ho, hc]

/-- The scan finds the first closer before which all but the last open level are closed again. -/
theorem closingOffset?_eq_some_iff {text : Text} {offset : Nat} (hd : 0 < depth) :
    kind.closingOffset? depth text = some offset ↔
      ∃ inside rest, text = inside ++ kind.closer :: rest ∧ inside.length = offset ∧
        kind.StaysOpen depth inside ∧
        inside.count kind.closer + 1 = depth + inside.count kind.opener := by
  induction text generalizing depth offset with
  | nil => simp [closingOffset?]
  | cons c cs ih =>
    rw [closingOffset?_cons]
    split
    · next hlast =>
      obtain ⟨rfl, hdepth⟩ := hlast
      obtain rfl : depth = 1 := by omega
      constructor
      · intro h
        exact ⟨[], cs, rfl, by simpa using h, by simp, by simp⟩
      · rintro ⟨inside, rest, heq, hlen, hs, -⟩
        cases inside with
        | nil => simpa using hlen
        | cons d inside =>
          obtain ⟨rfl, -⟩ := List.cons.inj heq
          have := (staysOpen_cons.1 hs).2 [] List.nil_prefix
          simp [levelAfter] at this
    · next hlast =>
      have hpos : 0 < kind.levelAfter depth c := levelAfter_pos hd hlast
      have hlevel : ∀ inside : Text, (inside.count kind.closer + 1 =
          kind.levelAfter depth c + inside.count kind.opener ↔
          (c :: inside).count kind.closer + 1 = depth + (c :: inside).count kind.opener) := by
        intro inside
        have := levelAfter_add_count kind c inside hd
        omega
      rw [Option.map_eq_some_iff]
      constructor
      · rintro ⟨before, hb, rfl⟩
        obtain ⟨inside, rest, rfl, hlen, hs, hcount⟩ := (ih hpos).1 hb
        exact ⟨c :: inside, rest, rfl, by simp [hlen], staysOpen_cons.2 ⟨hd, hs⟩,
          (hlevel inside).1 hcount⟩
      · rintro ⟨inside, rest, heq, hlen, hs, hcount⟩
        cases inside with
        | nil =>
          obtain ⟨rfl, -⟩ := List.cons.inj heq
          have : depth = 1 := by simpa using hcount.symm
          exact absurd ⟨rfl, by omega⟩ hlast
        | cons d inside =>
          obtain ⟨rfl, rfl⟩ := List.cons.inj heq
          refine ⟨inside.length, (ih hpos).2 ⟨inside, rest, rfl, rfl, ?_, ?_⟩, by simpa using hlen⟩
          · exact (staysOpen_cons.1 hs).2
          · exact (hlevel inside).2 hcount

/-- The scan behind an opener finds the first closer before which the text is balanced. -/
theorem closingOffset?_one_iff {text : Text} {offset : Nat} :
    kind.closingOffset? 1 text = some offset ↔
      ∃ inside rest, text = inside ++ kind.closer :: rest ∧ inside.length = offset ∧
        kind.Balanced inside := by
  rw [closingOffset?_eq_some_iff Nat.one_pos]
  refine exists_congr fun inside => exists_congr fun rest => and_congr_right fun _ =>
    and_congr_right fun _ => ?_
  rw [balanced_iff]
  refine and_congr_right fun _ => ?_
  omega

/-! ## The level behind a text -/

/-- How many levels are open behind a text before which `depth` are open, unless it closes one that
is not open. -/
def level? (kind : Delimiter) (depth : Nat) : Text → Option Nat
  | [] => some depth
  | c :: cs =>
    if c = kind.closer ∧ depth = 0 then none else level? kind (kind.levelAfter depth c) cs

@[simp] theorem level?_nil : kind.level? depth [] = some depth := rfl

theorem level?_cons_of_ne {c : Char} {cs : Text} (ho : c ≠ kind.opener) (hc : c ≠ kind.closer) :
    kind.level? depth (c :: cs) = kind.level? depth cs := by
  rw [level?, if_neg fun h => hc h.1, levelAfter, if_neg ho, if_neg hc]

theorem level?_append {a b : Text} :
    kind.level? depth (a ++ b) = (kind.level? depth a).bind fun level => kind.level? level b := by
  induction a generalizing depth with
  | nil => rfl
  | cons c cs ih =>
    rw [List.cons_append, level?, level?]
    split
    · rfl
    · exact ih

theorem level?_of_no_closer {text : Text} (hc : kind.closer ∉ text) :
    kind.level? depth text = some (depth + text.count kind.opener) := by
  induction text generalizing depth with
  | nil => rfl
  | cons c cs ih =>
    simp only [List.mem_cons, not_or] at hc
    rw [level?, if_neg fun h => hc.1 h.1.symm, ih hc.2, levelAfter, if_neg (Ne.symm hc.1),
      List.count_cons]
    by_cases ho : c = kind.opener
    · simp [ho]; omega
    · simp [ho]

theorem level?_eq_some_iff {text : Text} {level : Nat} :
    kind.level? depth text = some level ↔
      kind.StaysOpen (depth + 1) text ∧
        text.count kind.closer + level = depth + text.count kind.opener := by
  induction text generalizing depth with
  | nil => simp; omega
  | cons c cs ih =>
    rw [level?, staysOpen_cons]
    by_cases ho : c = kind.opener
    · subst ho
      simp [levelAfter, ih]; omega
    · by_cases hc : c = kind.closer
      · subst hc
        cases depth with
        | zero =>
          have hdeep : ¬ kind.StaysOpen 0 cs := fun h => by simpa using h [] List.nil_prefix
          simp [levelAfter, hdeep]
        | succ depth => simp [levelAfter, ih]; omega
      · simp [ho, hc, levelAfter, ih]

/-- Balanced texts are those that leave every level as it is. -/
theorem balanced_iff_level? {text : Text} : kind.Balanced text ↔ kind.level? 0 text = some 0 := by
  rw [level?_eq_some_iff, balanced_iff, Nat.zero_add, Nat.zero_add, Nat.add_zero]

theorem Balanced.level? {text : Text} (h : kind.Balanced text) :
    kind.level? depth text = some depth := by
  obtain ⟨hs, hc⟩ := balanced_iff.1 h
  exact level?_eq_some_iff.2 ⟨hs.mono (by omega), by rw [hc, Nat.add_comm]⟩

/-- Where the scan finds no closer, the level at which it began stays open. -/
theorem lt_level_of_no_closing {text : Text} {below level : Nat} (hd : 0 < depth)
    (h : kind.closingOffset? depth text = none)
    (hlevel : kind.level? (below + depth) text = some level) : below < level := by
  induction text generalizing depth with
  | nil =>
    obtain rfl := Option.some.inj hlevel
    omega
  | cons c cs ih =>
    rw [closingOffset?_cons] at h
    split at h
    · cases h
    next hlast =>
    rw [level?, if_neg (by omega)] at hlevel
    rw [levelAfter_add below c hd] at hlevel
    exact ih (levelAfter_pos hd hlast) (Option.map_eq_none_iff.1 h) hlevel

theorem Balanced.of_append_left {a b : Text} (h : kind.Balanced (a ++ b)) (ha : kind.Balanced a) :
    kind.Balanced b := by
  rw [balanced_iff_level?, level?_append, ha.level?] at h
  exact balanced_iff_level?.2 h

theorem Balanced.of_append_right {a b : Text} (h : kind.Balanced (a ++ b)) (hb : kind.Balanced b) :
    kind.Balanced a := by
  rw [balanced_iff_level?, level?_append, Option.bind_eq_some_iff] at h
  obtain ⟨level, ha, hlevel⟩ := h
  rw [hb.level?] at hlevel
  exact balanced_iff_level?.2 (ha.trans hlevel)

end FlowTemplate.Delimiter
