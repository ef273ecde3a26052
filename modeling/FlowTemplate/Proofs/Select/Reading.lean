/-
What a text has none of. Nothing is read in a text that `rest` follows (`Text.Lacks`): a search goes on
behind such a text, and rewriting leaves it as it is. Where a text has no tag that ends a select and none
of a container, no such tag begins in it before a character that the tags have no place for.
-/
import FlowTemplate.Proofs.SelectMarker
import FlowTemplate.Proofs.Template.Reading

namespace FlowTemplate

open Markup

namespace Text

variable {α : Type} {read : Text → Option α}

/-- Nothing is read anywhere in a text that `rest` follows. -/
def Lacks (read : Text → Option α) : Text → Text → Prop
  | [], _ => True
  | c :: cs, rest => read (c :: (cs ++ rest)) = none ∧ Lacks read cs rest

instance decidableLacks : (text rest : Text) → Decidable (Lacks read text rest)
  | [], _ => .isTrue trivial
  | _ :: cs, rest => @instDecidableAnd _ _ inferInstance (decidableLacks cs rest)

/-- What is read begins with one character. -/
def OpensWith (read : Text → Option α) (c : Char) : Prop :=
  ∀ text : Text, text.head? ≠ some c → read text = none

/-- What is read has no place for a character behind its first one. -/
def StopsAt (read : Text → Option α) (c : Char) : Prop :=
  ∀ (d : Char) (text rest : Text), read (d :: text) = none → read (d :: (text ++ c :: rest)) = none

namespace Lacks

theorem append_iff {a b rest : Text} :
    Lacks read (a ++ b) rest ↔ Lacks read a (b ++ rest) ∧ Lacks read b rest := by
  induction a with
  | nil => exact ⟨fun h => ⟨trivial, h⟩, And.right⟩
  | cons c cs ih => simp only [List.cons_append, Lacks, ih, List.append_assoc, and_assoc]

theorem append {a b rest : Text} (ha : Lacks read a (b ++ rest)) (hb : Lacks read b rest) :
    Lacks read (a ++ b) rest := append_iff.2 ⟨ha, hb⟩

theorem of_suffix {text back rest : Text} (h : Lacks read text rest) (hs : back <:+ text) :
    Lacks read back rest := by
  obtain ⟨front, rfl⟩ := hs
  exact (append_iff.1 h).2

theorem of_not_mem {c : Char} (hread : OpensWith read c) {text : Text} (h : c ∉ text) (rest : Text) :
    Lacks read text rest := by
  induction text with
  | nil => trivial
  | cons d text ih =>
    simp only [List.mem_cons, not_or] at h
    exact ⟨hread _ fun hd => h.1 (Option.some.inj hd).symm, ih h.2⟩

/-- What a text lacks by itself it also lacks before a character that none of it goes across. -/
theorem before {c : Char} (hread : StopsAt read c) {text : Text} (h : Lacks read text []) (rest : Text) :
    Lacks read text (c :: rest) := by
  induction text with
  | nil => trivial
  | cons d text ih =>
    simp only [Lacks, List.append_nil] at h
    exact ⟨hread d text rest h.1, ih h.2⟩

/-- What a text lacks with more text behind it also lacks by itself, if more text behind does not undo
what is read. -/
theorem left (hread : ∀ text rest : Text, read (text ++ rest) = none → read text = none)
    {text rest : Text} (h : Lacks read text rest) : Lacks read text [] := by
  induction text with
  | nil => trivial
  | cons c text ih =>
    rw [Lacks, ← List.cons_append] at h
    rw [Lacks, List.append_nil]
    exact ⟨hread _ _ h.1, ih h.2⟩

/-- A search ends in a text that does not lack what it looks for. -/
theorem exists_readUpTo?_of_not {after? : Text → Option Text} {text rest : Text}
    (h : ¬ Lacks after? text rest) :
    ∃ front c back left, text = front ++ c :: back ∧
      Markup.readUpTo? after? (text ++ rest) = some (front, left) := by
  induction text with
  | nil => exact absurd trivial h
  | cons c text ih =>
    rw [List.cons_append, Markup.readUpTo?]
    cases hfound : after? (c :: (text ++ rest)) with
    | some left => exact ⟨[], c, text, left, rfl, rfl⟩
    | none =>
      obtain ⟨front, d, back, left, rfl, hread⟩ := ih fun hlacks => h ⟨hfound, hlacks⟩
      exact ⟨c :: front, d, back, left, rfl, by rw [hread]; rfl⟩

/-- What stands before the place where a search ends lacks what it looks for. -/
theorem of_readUpTo? {after? : Text → Option Text} {text before left : Text}
    (h : Markup.readUpTo? after? text = some (before, left)) :
    ∃ rest, text = before ++ rest ∧ after? rest = some left ∧ Lacks after? before rest := by
  obtain ⟨rest, rfl, hrest⟩ := readUpTo?_eq_some h
  refine ⟨rest, rfl, hrest, ?_⟩
  by_contra hnot
  obtain ⟨front, c, back, found, rfl, hread⟩ := exists_readUpTo?_of_not hnot
  rw [h] at hread
  have hlength := congrArg (fun found => (found.map (·.1.length)).getD 0) hread
  simp at hlength

/-- A search goes on behind a text that has nothing of what it looks for. -/
theorem readUpTo? {after? : Text → Option Text} {front rest : Text} (h : Lacks after? front rest) :
    Markup.readUpTo? after? (front ++ rest) =
      (Markup.readUpTo? after? rest).map fun (before, left) => (front ++ before, left) := by
  induction front with
  | nil => simp
  | cons c front ih =>
    rw [List.cons_append, Markup.readUpTo?, h.1, ih h.2]
    cases Markup.readUpTo? after? rest <;> rfl

/-- A text in which nothing is read stays in front of what follows. -/
theorem rewrite {read : Recogniser α} {onHit : α → Text → Text} {front rest : Text}
    (h : Lacks read front rest) :
    Segment.rewrite read onHit (front ++ rest) = front ++ Segment.rewrite read onHit rest := by
  induction front with
  | nil => rfl
  | cons c front ih => rw [List.cons_append, Segment.rewrite_cons h.1, ih h.2, List.cons_append]

/-- A text in which no suffix is read lacks what is read. -/
theorem of_suffixes {text rest : Text}
    (h : ∀ t, t ≠ [] → t <:+ text → read (t ++ rest) = none) : Lacks read text rest := by
  induction text with
  | nil => trivial
  | cons c cs ih =>
    exact ⟨h (c :: cs) (List.cons_ne_nil c cs) List.suffix_rfl,
      ih fun t hne ht => h t hne (ht.trans (List.suffix_cons c cs))⟩

end Lacks

end Text

namespace SelectMarker

/-! ## Tags -/

/-- No other character is a sign in some letter case, if the sign stands before the small letters. -/
theorem isLetter_sign {sign c : Char} (hsign : sign.toNat < 'a'.toNat) (h : c ≠ sign) :
    isLetter sign c = false := by
  have hlower : c.toLower ≠ sign := by
    unfold Char.toLower
    split
    next hupper =>
      rintro rfl
      have hle := UInt32.le_iff_toNat_le.1 hupper.1
      have hge := UInt32.le_iff_toNat_le.1 hupper.2
      change (c.val + ('a'.val - 'A'.val)).toNat < 97 at hsign
      simp only [UInt32.toNat_add] at hsign
      simp at hsign hle hge
      omega
    next => exact h
  have hother : sign ≠ 's' ∧ sign ≠ 'i' ∧ sign ≠ 'k' := by
    refine ⟨?_, ?_, ?_⟩ <;> rintro rfl <;> revert hsign <;> decide
  simp [isLetter, hlower, hother]

theorem isLetter_angle {c : Char} (h : c ≠ '<') : isLetter '<' c = false := isLetter_sign (by decide) h

theorem eq_of_isLetter_sign {sign c : Char} (hsign : sign.toNat < 'a'.toNat) (h : isLetter sign c = true) :
    c = sign := by
  by_contra hne
  rw [isLetter_sign hsign hne] at h
  cases h

theorem Spells.opens_tag {opening : Text} (h : Spells "<ng-container".toList opening) :
    ∃ c cs, opening = '<' :: c :: cs ∧ c ≠ '!' := by
  have hletters : "<ng-container".toList = '<' :: 'n' :: "g-container".toList := by decide
  rw [hletters] at h
  obtain _ | ⟨hangle, _ | ⟨hc, -⟩⟩ := h
  obtain rfl := eq_of_isLetter_sign (by decide) hangle
  refine ⟨_, _, rfl, ?_⟩
  rintro rfl
  revert hc
  decide

theorem readAnyCase?_append {letters text : Text} {c : Char}
    (h : ∀ letter ∈ letters, isLetter letter c = false) (hread : readAnyCase? letters text = none)
    (rest : Text) : readAnyCase? letters (text ++ c :: rest) = none := by
  rw [readAnyCase?_append_cons h, hread]
  rfl

/-- What follows a tag that opens or closes a container, or one that ends a select written in small
letters, up to its name. -/
def afterTag? (text : Text) : Option Text :=
  (afterEnd? "select".toList text).or
    ((afterAnyCase? "<ng-container".toList text).or (afterAnyCase? "</ng-container>".toList text))

theorem afterTag?_eq_none_iff {text : Text} : afterTag? text = none ↔
    afterEnd? "select".toList text = none ∧ afterAnyCase? "<ng-container".toList text = none ∧
      afterAnyCase? "</ng-container>".toList text = none := by
  simp only [afterTag?, Option.or_eq_none_iff]

/-- The characters that stand behind literals and expressions in markup. -/
def stops : Text := ['<', ')', '"', ';']

theorem afterAnyCase?_stopsAt {letters : Text} {c : Char}
    (h : ∀ letter ∈ letters, isLetter letter c = false) {first : Char} :
    Text.StopsAt (afterAnyCase? (first :: letters)) c := by
  intro d text rest hread
  rw [afterAnyCase?, Option.map_eq_none_iff, readAnyCase?] at hread ⊢
  split at hread
  next hd =>
    rw [if_pos hd, readAnyCase?_append h (Option.map_eq_none_iff.1 hread)]
    rfl
  next hd => rw [if_neg hd]

theorem afterEnd?_cons (name : Text) (d : Char) (text : Text) :
    afterEnd? name (d :: text) =
      if d = '<' then do Text.after? ['>'] (← afterSameName? name (← Text.after? ['/'] text)) else none := by
  split
  next hd =>
    subst hd
    rfl
  next hd =>
    have hafter : Text.after? ['<', '/'] (d :: text) = none := by
      simp [Text.after?, List.isPrefixOf?, Ne.symm hd]
    rw [afterEnd?, hafter]
    rfl

theorem afterEnd?_opensWith {name : Text} : Text.OpensWith (afterEnd? name) '<' := by
  intro text hhead
  cases text with
  | nil => rfl
  | cons c text => rw [afterEnd?_cons, if_neg fun hc => hhead (congrArg some hc)]

theorem afterEnd?_stopsAt {name : Text} {c : Char} (hslash : c ≠ '/') (hangle : c ≠ '>')
    (hname : ∀ d ∈ name, lowerChar c ≠ lowerChar d) : Text.StopsAt (afterEnd? name) c := by
  intro d text rest hread
  rw [afterEnd?_cons] at hread ⊢
  split at hread
  next hd =>
    rw [if_pos hd, Text.after?_append_cons (by simpa using hslash)]
    cases hafter : Text.after? ['/'] text with
    | none => rfl
    | some behind =>
      rw [hafter] at hread
      simp only [Option.bind_eq_bind, Option.bind_some, Option.map_some,
        afterSameName?_append_cons hname] at hread ⊢
      cases hsame : afterSameName? name behind with
      | none => rfl
      | some left =>
        rw [hsame, Option.bind_some] at hread
        rw [Option.map_some, Option.bind_some, Text.after?_append_cons (by simpa using hangle), hread]
        rfl
  next hd => rw [if_neg hd]

theorem afterEnd?_select_stopsAt {c : Char} (h : c ∈ stops) : Text.StopsAt (afterEnd? "select".toList) c := by
  have hend : ∀ c ∈ stops, c ≠ '/' ∧ c ≠ '>' ∧ ∀ d ∈ "select".toList, lowerChar c ≠ lowerChar d := by
    decide
  obtain ⟨hslash, hangle, hname⟩ := hend c h
  exact afterEnd?_stopsAt hslash hangle hname

theorem afterTag?_stopsAt {c : Char} (h : c ∈ stops) : Text.StopsAt afterTag? c := by
  have hopening : ∀ c ∈ stops, ∀ letter ∈ "ng-container".toList, isLetter letter c = false := by decide
  have hclosing : ∀ c ∈ stops, ∀ letter ∈ "/ng-container>".toList, isLetter letter c = false := by decide
  intro d text rest hread
  rw [afterTag?_eq_none_iff] at hread ⊢
  exact ⟨afterEnd?_select_stopsAt h d text rest hread.1,
    afterAnyCase?_stopsAt (hopening c h) d text rest hread.2.1,
    afterAnyCase?_stopsAt (hclosing c h) d text rest hread.2.2⟩

theorem afterTag?_opensWith : Text.OpensWith afterTag? '<' := by
  intro text hhead
  rw [afterTag?_eq_none_iff]
  cases text with
  | nil => exact ⟨rfl, rfl, rfl⟩
  | cons d text =>
    have hd : d ≠ '<' := fun heq => hhead (congrArg some heq)
    have hletter : ∀ letters, afterAnyCase? ('<' :: letters) (d :: text) = none := fun letters => by
      rw [afterAnyCase?, readAnyCase?, isLetter_angle hd]
      rfl
    exact ⟨by rw [afterEnd?_cons, if_neg hd], hletter _, hletter _⟩

/-! ## Loops -/

/-- What follows the tag that closes a container. -/
def afterClosing? : Text → Option Text := afterAnyCase? "</ng-container>".toList

theorem afterAnyCase?_append {letters name : Text} (h : Spells letters name) (rest : Text) :
    afterAnyCase? letters (name ++ rest) = some rest := by
  have hread : readAnyCase? letters (name ++ rest) = some (name, rest) := by
    induction h with
    | nil => rfl
    | cons hc _ ih => rw [List.cons_append, readAnyCase?, if_pos hc, ih]; rfl
  rw [afterAnyCase?, hread]
  rfl

theorem iterable?_blank {iterable : Text} (hne : iterable ≠ []) (htrimmed : iterable.trim = iterable) :
    iterable? (' ' :: iterable) = some iterable := by
  have hblank : isBlank ' ' = true := by decide
  have hstart : iterable.trimStart = iterable :=
    Text.trimStart_of_head (Text.trim_eq_self_iff.1 htrimmed).1
  rw [iterable?, hblank, hstart]
  obtain ⟨c, cs, rfl⟩ := List.exists_cons_of_ne_nil hne
  rfl

theorem isWord_of_continuesIdentifier {c : Char} (hdollar : c ≠ '$')
    (h : continuesIdentifier c = true) : isWord c = true := by
  simp only [continuesIdentifier, startsIdentifier, Bool.or_eq_true, decide_eq_true_eq, hdollar,
    or_false] at h
  simp only [isWord, Char.isAlphanum, Bool.or_eq_true, beq_iff_eq]
  tauto

theorem isWord_of_mem {name : Template.Name} (h : '$' ∉ name.text) {c : Char} (hc : c ∈ name.text) :
    isWord c = true :=
  isWord_of_continuesIdentifier (fun heq => h (heq ▸ hc)) (Template.Name.continues hc)

theorem trimStart_item (name : Template.Name) (rest : Text) :
    (name.text ++ rest).trimStart = name.text ++ rest :=
  Text.trimStart_of_head fun c hc => by
    rw [List.head?_append_of_ne_nil _ name.ne_nil] at hc
    exact (Text.trim_eq_self_iff.1 name.trimmed).1 c hc

theorem read_item {name : Template.Name} (h : '$' ∉ name.text) (rest : Text) :
    (name.text ++ ' ' :: rest).takeWhile isWord = name.text ∧
      (name.text ++ ' ' :: rest).dropWhile isWord = ' ' :: rest := by
  have hword : ∀ c ∈ name.text, isWord c = true := fun c hc => isWord_of_mem h hc
  have hspace : isWord ' ' = false := by decide
  constructor
  · rw [Text.takeWhile_append_cons hspace]
    exact List.takeWhile_eq_self_iff.2 hword
  · rw [Text.dropWhile_append_cons hspace, List.dropWhile_eq_nil_iff.2 hword, List.nil_append]

theorem afterBlanks?_item {name : Template.Name} (h : '$' ∈ name.text) (rest : Text) :
    Text.afterBlanks? ((name.text ++ rest).dropWhile isWord) = none := by
  obtain ⟨front, back, hname, hfree⟩ := List.eq_append_cons_of_mem h
  have hdollar : isWord '$' = false := by decide
  have hword : ∀ c ∈ front, isWord c = true := by
    intro c hc
    have hcontinues : continuesIdentifier c = true :=
      Template.Name.continues (by rw [hname]; exact List.mem_append_left _ hc)
    exact isWord_of_continuesIdentifier (fun heq => hfree (heq ▸ hc)) hcontinues
  rw [hname, List.append_assoc, List.cons_append, Text.dropWhile_append_cons hdollar,
    List.dropWhile_eq_nil_iff.2 hword]
  rfl

/-- The opening tag of a loop up to the word in front of what it runs over. -/
def loopHead (item : Text) : Text := "<ng-container *ngFor=\"let ".toList ++ item ++ " of".toList

theorem opening_loop (item value text : Text) :
    Template.opening "*ngFor".toList ("let ".toList ++ item ++ " of ".toList ++ value) ++ text =
      loopHead item ++ (' ' :: value ++ '"' :: '>' :: text) := by
  have hfront : "<ng-container ".toList ++ "*ngFor".toList ++ "=\"".toList ++ "let ".toList =
      "<ng-container *ngFor=\"let ".toList := by decide
  have hof : " of ".toList = " of".toList ++ [' '] := by decide
  have hend : "\">".toList = ['"', '>'] := by decide
  unfold Template.opening loopHead
  rw [← hfront, hof, hend]
  simp only [List.append_assoc, List.cons_append, List.nil_append]

/-- **A loop is read behind its variable** if that is a word, which no dollar sign is part of. -/
theorem readLoop_head (item : Template.Name) (text : Text) :
    readLoop (loopHead item.text ++ text) = if '$' ∈ item.text then none else (do
      let (inside, rest) ← readUntil? '"' text
      let iterable ← iterable? inside
      let (_, rest) ← readUntil? '>' rest
      let (body, rest) ← readUpTo? afterClosing? rest
      some (⟨item.text, iterable, body⟩, rest)) := by
  have hspelled : Spells "<ng-container".toList "<ng-container".toList ∧
      Spells "*ngfor".toList "*ngFor".toList ∧ Spells "let".toList "let".toList ∧
      Spells "of".toList "of".toList := by
    unfold Spells
    decide
  obtain ⟨htag, hfor, hlet, hof⟩ := hspelled
  have hblank : ∀ rest : Text, Text.afterBlanks? (' ' :: rest) = some rest.trimStart := fun _ => rfl
  have hkept : ∀ rest : Text, Text.trimStart ("*ngFor".toList ++ rest) = "*ngFor".toList ++ rest ∧
      Text.trimStart ('=' :: rest) = '=' :: rest ∧ Text.trimStart ('"' :: rest) = '"' :: rest ∧
      Text.trimStart ("of".toList ++ rest) = "of".toList ++ rest := fun _ => ⟨rfl, rfl, rfl, rfl⟩
  have hsigns : ∀ rest : Text, Text.after? ['='] ('=' :: rest) = some rest ∧
      Text.after? ['"'] ('"' :: rest) = some rest := fun _ => ⟨rfl, rfl⟩
  have hne : item.text.isEmpty = false := by simpa using item.ne_nil
  have hpieces : loopHead item.text ++ text = "<ng-container".toList ++ (' ' :: ("*ngFor".toList ++
      '=' :: '"' :: ("let".toList ++ ' ' :: (item.text ++ ' ' :: ("of".toList ++ text))))) := by
    have hfront : "<ng-container *ngFor=\"let ".toList =
        "<ng-container".toList ++ ' ' :: ("*ngFor".toList ++ '=' :: '"' :: ("let".toList ++ [' '])) := by
      decide
    have hbehind : " of".toList = ' ' :: "of".toList := by decide
    unfold loopHead
    rw [hfront, hbehind]
    simp only [List.append_assoc, List.cons_append, List.nil_append]
  rw [hpieces, readLoop, afterAnyCase?_append htag]
  simp only [Option.bind_eq_bind, Option.bind_some, hblank, hkept, afterAnyCase?_append hfor, hsigns,
    afterAnyCase?_append hlet, trimStart_item]
  by_cases hdollar : '$' ∈ item.text
  · simp only [afterBlanks?_item hdollar, Option.bind_none, ite_self, if_pos hdollar]
  · simp only [read_item hdollar, hne, hblank, hkept, Option.bind_some, afterAnyCase?_append hof,
      if_neg hdollar, if_neg Bool.false_ne_true]
    rfl

/-- **A loop goes up to the first tag that closes a container**, whichever one that is. -/
theorem readLoop_value (item : Template.Name) {value : Text} (hne : value ≠ [])
    (htrimmed : value.trim = value) (hquote : '"' ∉ value) (text : Text) :
    readLoop (loopHead item.text ++ (' ' :: value ++ '"' :: '>' :: text)) =
      if '$' ∈ item.text then none
      else (readUpTo? afterClosing? text).map fun (body, rest) => (⟨item.text, value, body⟩, rest) := by
  have hvalue : readUntil? '"' (' ' :: value ++ '"' :: '>' :: text) = some (' ' :: value, '>' :: text) :=
    readUntil?_eq_some_iff.2 ⟨rfl, List.not_mem_cons_of_ne_of_not_mem (by decide) hquote⟩
  have hangle : readUntil? '>' ('>' :: text) = some ([], text) :=
    readUntil?_eq_some_iff.2 ⟨rfl, List.not_mem_nil⟩
  rw [readLoop_head]
  simp only [Option.bind_eq_bind, hvalue, Option.bind_some, iterable?_blank hne htrimmed, hangle]
  rw [Option.map_eq_bind]
  rfl

theorem readLoop_opening {header : Template.LoopHeader} (htrack : header.track? = none)
    (hitem : '$' ∉ header.item.text) (hquote : '"' ∉ header.iterable.text) (text : Text) :
    readLoop (Template.opening "*ngFor".toList header.directive ++ text) =
      (readUpTo? afterClosing? text).map fun (body, rest) =>
        (⟨header.item.text, header.iterable.text, body⟩, rest) := by
  have hdirective : header.directive =
      "let ".toList ++ header.item.text ++ " of ".toList ++ header.iterable.text := by
    unfold Template.LoopHeader.directive
    simp only [htrack, List.append_nil]
  rw [hdirective, opening_loop, readLoop_value _ header.iterable.ne_nil header.iterable.trimmed hquote,
    if_neg hitem]

theorem readLoop_eq_none {text : Text} (h : afterAnyCase? "<ng-container".toList text = none) :
    readLoop text = none := by
  rw [readLoop, h]
  rfl

theorem readLoop_opensWith : Text.OpensWith readLoop '<' := fun _ hhead =>
  readLoop_eq_none (afterTag?_eq_none_iff.1 (afterTag?_opensWith _ hhead)).2.1

theorem afterAnyCase?_eq_some {letters text rest : Text} (h : afterAnyCase? letters text = some rest) :
    ∃ name, Spells letters name ∧ text = name ++ rest := by
  rw [afterAnyCase?, Option.map_eq_some_iff] at h
  obtain ⟨⟨name, left⟩, hread, rfl⟩ := h
  exact ⟨name, readAnyCase?_eq_some hread⟩

theorem afterAnyCase?_left {letters text rest : Text} (h : afterAnyCase? letters (text ++ rest) = none) :
    afterAnyCase? letters text = none := by
  rw [Option.eq_none_iff_forall_not_mem]
  intro left hleft
  obtain ⟨name, hname, rfl⟩ := afterAnyCase?_eq_some hleft
  rw [List.append_assoc, afterAnyCase?_append hname] at h
  cases h

theorem afterAnyCase?_suffix {letters text rest : Text} (h : afterAnyCase? letters text = some rest) :
    rest <:+ text := by
  obtain ⟨name, -, rfl⟩ := afterAnyCase?_eq_some h
  exact List.suffix_append _ _

/-- A loop goes from a tag that opens a container to one that closes it, with the body in between, and its
variable is a word. -/
theorem readLoop_eq_some {text rest : Text} {loop : LoopElement} (h : readLoop text = some (loop, rest)) :
    ∃ opening inside closing, Spells "<ng-container".toList opening ∧ Spells "</ng-container>".toList closing ∧
      (∀ c ∈ loop.item, isWord c = true) ∧ text = opening ++ (inside ++ (loop.body ++ (closing ++ rest))) := by
  simp only [readLoop, Option.bind_eq_bind, Option.bind_eq_some_iff] at h
  obtain ⟨tag, htag, gap, hgap, directive, hdirective, sign, hsign, quote, hquote, binder, hbinder, named,
    hnamed, h⟩ := h
  split at h
  next => cases h
  next =>
    simp only [Option.bind_eq_some_iff] at h
    obtain ⟨word, hword, source, hsource, ⟨inside, left⟩, hinside, iterable, -, ⟨between, body⟩, hangle,
      ⟨content, back⟩, hbody, h⟩ := h
    cases h
    obtain ⟨name, hname, rfl⟩ := afterAnyCase?_eq_some htag
    obtain ⟨more, rfl, hclose⟩ := readUpTo?_eq_some hbody
    obtain ⟨closing, hclosing, rfl⟩ := afterAnyCase?_eq_some hclose
    have hbody : content ++ (closing ++ back) <:+ source := by
      obtain ⟨rfl, -⟩ := readUntil?_eq_some_iff.1 hangle
      obtain ⟨rfl, -⟩ := readUntil?_eq_some_iff.1 hinside
      exact ⟨inside ++ '"' :: between ++ ['>'], by simp⟩
    have hsource : source <:+ named := (afterAnyCase?_suffix hsource).trans <|
      (Text.afterBlanks?_suffix hword).trans (List.dropWhile_suffix _)
    have hnamed : named <:+ sign := (Text.afterBlanks?_suffix hnamed).trans <|
      (afterAnyCase?_suffix hbinder).trans <| (Text.after?_suffix hquote).trans (Text.trimStart_suffix _)
    have hsign : sign <:+ tag := (Text.after?_suffix hsign).trans <| (Text.trimStart_suffix _).trans <|
      (afterAnyCase?_suffix hdirective).trans (Text.afterBlanks?_suffix hgap)
    obtain ⟨front, rfl⟩ := hbody.trans (hsource.trans (hnamed.trans hsign))
    exact ⟨name, front, closing, hname, hclosing, fun c hc => List.mem_takeWhile_imp hc, rfl⟩

theorem readLoop_consumes : readLoop.Consumes := by
  intro text loop rest h
  obtain ⟨opening, inside, closing, hopening, -, -, rfl⟩ := readLoop_eq_some h
  refine ⟨opening ++ (inside ++ (loop.body ++ closing)), ?_, by simp⟩
  cases hopening with
  | cons _ _ => exact List.cons_ne_nil _ _

end SelectMarker

end FlowTemplate
