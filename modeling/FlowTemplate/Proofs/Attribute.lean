/-
The values of the attributes that are written for expressions. An expression stands between double
quotes as it was read, and a reader of the markup takes a value to end at the next quote. What is
written around the expressions has none, because loop variables and aliases are identifiers. So an
attribute reads back exactly if its expressions have no quote (`Emitted.read?_eq_iff`).
-/
import FlowTemplate.Proofs.Interpolation.Seam
import FlowTemplate.Proofs.Template.Reading

namespace FlowTemplate

/-! ## Names in headers -/

theorem not_mem_of_isIdentifier {name : Text} (h : isIdentifier name = true) {c : Char}
    (hc : continuesIdentifier c = false) : c ∉ name :=
  Template.Name.not_mem ⟨name, h⟩ hc

theorem ne_nil_of_isIdentifier {name : Text} (h : isIdentifier name = true) : name ≠ [] :=
  Template.Name.ne_nil ⟨name, h⟩

theorem readIdentifier?_eq_some {text name rest : Text} (h : readIdentifier? text = some (name, rest)) :
    isIdentifier name = true := by
  cases text with
  | nil => cases h
  | cons c cs =>
    rw [readIdentifier?] at h
    split at h
    next hc =>
      cases h
      rw [isIdentifier, hc, Bool.true_and, List.all_eq_true]
      exact fun d hd => List.mem_takeWhile_imp hd
    next => cases h

theorem readIdentifier?_suffix {text name rest : Text} (h : readIdentifier? text = some (name, rest)) :
    rest <:+ text := by
  cases text with
  | nil => cases h
  | cons c cs =>
    rw [readIdentifier?] at h
    split at h
    · cases h
      exact (List.dropWhile_suffix _).trans (List.suffix_cons c cs)
    · cases h

/-- A branch whose alias is an identifier, if it has one. -/
def Branch.Named (branch : Branch) : Prop := ∀ name, branch.alias? = some name → isIdentifier name = true

namespace Branch

theorem named_ofParts (text : Text) (header body : Span) : (ofParts text header body).Named := by
  intro name h
  simp only [ofParts, Condition.ofHeader] at h
  split at h
  · cases h
  next expression clause hcut =>
    split at h
    next c cs name hname =>
      cases h
      obtain ⟨-, -, -, hvalid, -⟩ := Condition.aliasClause?_eq_some hname
      exact hvalid
    next => cases h

theorem named_ofElse (text : Text) (body : Span) : (ofElse text body).Named := fun _ h => by cases h

end Branch

namespace Chain

theorem continuation_named {text : Text} {index next : Nat} {branch : Branch}
    (h : continuation text index = .ok (some (branch, next))) : branch.Named := by
  rcases continuation_cases h with ⟨rest, header, body, -, -, rfl, -⟩ | ⟨rest, body, -, -, rfl, -⟩
  · exact Branch.named_ofParts _ _ _
  · exact Branch.named_ofElse _ _

theorem continueFrom_named {text : Text} {fuel : Nat} {last : Branch} {stop finish : Nat}
    {branches : List Branch}
    (h : (continueFrom text fuel last stop).result = .ok (branches, finish)) :
    ∀ branch ∈ branches, branch.Named := by
  induction fuel generalizing last stop branches with
  | zero =>
    cases h
    exact fun _ hm => absurd hm List.not_mem_nil
  | succ fuel ih =>
    rcases continueFrom_cases h with ⟨rfl, -⟩ | ⟨found, next, rest, -, hfound, rfl, hrest⟩
    · exact fun _ hm => absurd hm List.not_mem_nil
    · exact List.forall_mem_cons.2 ⟨continuation_named hfound, ih hrest⟩

theorem ofBlock_named {text : Text} {block : Block} {branches : List Branch} {stop : Nat}
    (h : (ofBlock text block).result = .ok (branches, stop)) : ∀ branch ∈ branches, branch.Named := by
  obtain ⟨rest, rfl, hrest⟩ := ofBlock_cases h
  exact List.forall_mem_cons.2 ⟨Branch.named_ofParts _ _ _, continueFrom_named hrest⟩

end Chain

namespace Loop

/-- A loop whose variable is an identifier, and whose track expression is not empty. -/
structure Named (loop : Loop) : Prop where
  item : isIdentifier loop.item = true
  track : loop.track? ≠ some []

theorem exists_of_trackOf {rest key : Text} (h : trackOf rest = some key) :
    ∃ found : Text, found <:+ rest.trim ∧ found ≠ [] ∧ key = found.trim := by
  unfold trackOf at h
  split at h
  · cases h
  · obtain ⟨found, hclause, rfl⟩ := Option.map_eq_some_iff.1 h
    simp only [trackClause?, Option.bind_eq_bind, Option.bind_eq_some_iff] at hclause
    obtain ⟨behind, hafter, found, hblanks, hclause⟩ := hclause
    split at hclause
    · cases hclause
    next hempty =>
      cases hclause
      exact ⟨_, (Text.afterBlanks?_suffix hblanks).trans (Text.after?_suffix hafter),
        fun hnil => hempty (List.isEmpty_iff.2 hnil), rfl⟩

/-- What follows a track clause is trimmed, so an expression in it does not end with a blank. -/
theorem trackOf_ne_nil (rest : Text) : trackOf rest ≠ some [] := by
  intro h
  obtain ⟨found, hsuffix, hne, hkey⟩ := exists_of_trackOf h
  exact Text.trim_ne_nil_of_suffix hsuffix hne hkey.symm

/-- What a loop clause names: a variable, and at its end what the loop runs over. -/
theorem clause?_eq_some {clause item iterable : Text} (h : clause? clause = some (item, iterable)) :
    isIdentifier item = true ∧ iterable <:+ clause ∧ iterable ≠ [] := by
  simp only [clause?, Option.bind_eq_bind, Option.bind_eq_some_iff] at h
  obtain ⟨⟨name, behind⟩, hname, rest, hgap, back, hof, found, hblanks, h⟩ := h
  split at h
  · cases h
  next hempty =>
    cases h
    have hsuffix := (Text.afterBlanks?_suffix hblanks).trans <| (Text.after?_suffix hof).trans <|
      (Text.afterBlanks?_suffix hgap).trans (readIdentifier?_suffix hname)
    exact ⟨readIdentifier?_eq_some hname, hsuffix, fun hnil => hempty (List.isEmpty_iff.2 hnil)⟩

theorem ofBlock_named {text : Text} {block : Block} {loop : Loop}
    (h : (ofBlock text block).result = .ok loop) : loop.Named := by
  rw [result_ofBlock] at h
  split at h
  · cases h
  next item iterable hclause =>
    cases h
    exact ⟨(clause?_eq_some hclause).1, trackOf_ne_nil _⟩

/-- What a loop that is read runs over is trimmed, and so is its track expression. -/
theorem ofBlock_trimmed {text : Text} {block : Block} {loop : Loop}
    (h : (ofBlock text block).result = .ok loop) :
    loop.iterable ≠ [] ∧ loop.iterable.trim = loop.iterable ∧ ∀ key ∈ loop.track?, key.trim = key := by
  rw [result_ofBlock] at h
  split at h
  · cases h
  next item iterable hclause =>
    cases h
    obtain ⟨-, hsuffix, hne⟩ := clause?_eq_some hclause
    refine ⟨Text.trim_ne_nil_of_suffix hsuffix hne, Text.trim_trim iterable, fun key hkey => ?_⟩
    obtain ⟨found, -, -, rfl⟩ := exists_of_trackOf hkey
    exact Text.trim_trim found

end Loop

/-! ## Written and read -/

/-- An attribute in markup that was written. -/
structure Attribute where
  /-- The markup as a whole. -/
  markup : Text
  /-- What of the markup stands before the value, with the quote that opens it. -/
  front : Text
  /-- The value that is meant. -/
  value : Text
  /-- The expressions of the template in the value. -/
  expressions : List Text

namespace Attribute

/-- The value as the markup reads: the text from the opening quote to the next one. -/
def read? (attr : Attribute) : Option Text :=
  (Text.after? attr.front attr.markup).bind fun rest =>
    (Markup.readUntil? '"' rest).map (·.1)

/-- The value stands in the markup where it is said to stand, with a quote behind it. -/
def Written (attr : Attribute) : Prop :=
  ∃ back, attr.markup = attr.front ++ (attr.value ++ '"' :: back)

theorem Written.read?_eq {attr : Attribute} (h : attr.Written) :
    attr.read? = some (attr.value.takeWhile (· != '"')) := by
  obtain ⟨back, hmarkup⟩ := h
  rw [read?, hmarkup, Text.after?_append, Option.bind_some]
  by_cases hquote : '"' ∈ attr.value
  · obtain ⟨before, after, hvalue, hfree⟩ := List.eq_append_cons_of_mem hquote
    have hbefore : before.takeWhile (· != '"') = before :=
      List.takeWhile_eq_self_iff.2 fun c hc => bne_iff_ne.2 fun heq => hfree (heq ▸ hc)
    have hread : Markup.readUntil? '"' (attr.value ++ '"' :: back) =
        some (before, after ++ '"' :: back) :=
      Markup.readUntil?_eq_some_iff.2 ⟨by rw [hvalue, List.append_assoc, List.cons_append], hfree⟩
    rw [hread, hvalue, Text.takeWhile_append_cons (by decide), hbefore]
    rfl
  · have hvalue : attr.value.takeWhile (· != '"') = attr.value :=
      List.takeWhile_eq_self_iff.2 fun c hc => bne_iff_ne.2 fun heq => hquote (heq ▸ hc)
    rw [Markup.readUntil?_eq_some_iff.2 ⟨rfl, hquote⟩, hvalue]
    rfl

theorem Written.read?_eq_value_iff {attr : Attribute} (h : attr.Written) :
    attr.read? = some attr.value ↔ '"' ∉ attr.value := by
  rw [h.read?_eq, Option.some.injEq, List.takeWhile_eq_self_iff]
  constructor
  · intro hall hquote
    exact absurd (hall _ hquote) (by decide)
  · intro hquote c hc
    exact bne_iff_ne.2 fun heq => hquote (heq ▸ hc)

/-! ## The attributes of containers and spans -/

/-- What stands before the value of the directive of a container. -/
def opening (tag directive : Text) : Text := ['<'] ++ tag ++ [' '] ++ directive ++ ['=', '"']

/-- The directive of a branch, in the containers of its chain: the guard, and the alias if there is
one. The guard has all the conditions up to the one of the branch. -/
def ofBranch (tag : Text) (chain : List Branch) (i : Nat) (branch : Branch) : Attribute where
  markup := Container.ofChain tag chain
  front := ((List.zipWith (Container.ofBranch tag) chain (Guard.ofChain chain)).take i).flatMap
    (· ++ ['\n']) ++ opening tag Container.ifDirective
  value := Guard.conjunction ((chain.take i).filterMap Branch.condition?) branch.condition? ++
    (branch.alias?.map ("; let ".toList ++ ·)).getD []
  expressions := (chain.take i).filterMap Branch.condition? ++ branch.condition?.toList

/-- The directive of a loop: its clause, and the track expression if there is one. -/
def ofLoop (tag : Text) (loop : Loop) : Attribute where
  markup := Container.ofLoop tag loop
  front := opening tag Container.forDirective
  value := "let ".toList ++ loop.item ++ " of ".toList ++ loop.iterable ++
    (loop.track?.map ("; trackBy: ".toList ++ ·)).getD []
  expressions := loop.iterable :: loop.track?.toList

/-- The binding of a span, behind what became of the segments before it. -/
def ofSpan (template : Text) (before : List (Segment Text)) (expression : Text) : Attribute where
  markup := Interpolation.compileContent template
  front := before.flatMap (Segment.replacement fun found _ => Interpolation.contentSpan found) ++
    "<span [innerText]=\"".toList
  value := expression
  expressions := [expression]

theorem render_eq (tag directive expression content : Text) :
    ∃ back, Container.render tag directive expression content =
      opening tag directive ++ (expression ++ '"' :: back) := by
  refine ⟨'>' :: (content ++ ['<', '/'] ++ tag ++ ['>']), ?_⟩
  simp [Container.render, opening]

theorem written_ofBranch (tag : Text) {chain : List Branch} {i : Nat} {branch : Branch}
    (hbranch : chain[i]? = some branch) (hnamed : branch.Named) : (ofBranch tag chain i branch).Written := by
  have halias : branch.alias? ≠ some [] := fun h => ne_nil_of_isIdentifier (hnamed [] h) rfl
  have hcontainer : (List.zipWith (Container.ofBranch tag) chain (Guard.ofChain chain))[i]? =
      some (Container.ofBranch tag branch
        (Guard.conjunction ((chain.take i).filterMap Branch.condition?) branch.condition?)) := by
    rw [List.getElem?_zipWith, hbranch, Guard.ofChain_getElem?, hbranch]
    rfl
  obtain ⟨behind, hmarkup⟩ := Text.joinWith_eq_of_getElem? ['\n'] hcontainer
  obtain ⟨back, hrender⟩ := render_eq tag Container.ifDirective (ofBranch tag chain i branch).value
    branch.content
  refine ⟨back ++ behind, ?_⟩
  rw [Container.ofBranch, Container.binding_eq _ _ halias] at hmarkup
  rw [ofBranch] at hrender ⊢
  simp only at hrender ⊢
  rw [Container.ofChain, hmarkup, hrender]
  simp only [List.append_assoc, List.cons_append]

theorem written_ofLoop (tag : Text) {loop : Loop} (hnamed : loop.Named) : (ofLoop tag loop).Written := by
  have hmarkup : (ofLoop tag loop).markup =
      Container.render tag Container.forDirective (ofLoop tag loop).value loop.content := by
    simp only [ofLoop, Container.ofLoop, Container.loopExpression_eq loop hnamed.track]
  rw [Written, hmarkup]
  exact render_eq _ _ _ _

theorem written_ofSpan {template expression w : Text} {before after : List (Segment Text)}
    (h : Segment.ofText Interpolation.readExpression template = before ++ .hit expression w :: after) :
    (ofSpan template before expression).Written := by
  have hmarkup : (ofSpan template before expression).markup =
      before.flatMap (Segment.replacement fun found _ => Interpolation.contentSpan found) ++
        (Interpolation.contentSpan expression ++
          after.flatMap (Segment.replacement fun found _ => Interpolation.contentSpan found)) := by
    simp only [ofSpan, Interpolation.compileContent_eq_rewrite, Segment.rewrite, h,
      List.flatMap_append, List.flatMap_cons, Segment.replacement]
  refine ⟨"></span>".toList ++
    after.flatMap (Segment.replacement fun found _ => Interpolation.contentSpan found), ?_⟩
  rw [hmarkup, Interpolation.contentSpan_eq]
  simp only [ofSpan, List.append_assoc, List.cons_append]

/-! ## Quotes -/

/-- No expression in the value has a quote. -/
def QuoteFree (attr : Attribute) : Prop := ∀ expression ∈ attr.expressions, '"' ∉ expression

instance (attr : Attribute) : Decidable attr.QuoteFree :=
  inferInstanceAs (Decidable (∀ expression ∈ attr.expressions, '"' ∉ expression))

theorem quote_clause {front : Text} (hfront : '"' ∉ front) (clause? : Option Text) :
    '"' ∉ (clause?.map (front ++ ·)).getD [] ↔ ∀ clause ∈ clause?, '"' ∉ clause := by
  cases clause? with
  | none => simp
  | some clause => simp [hfront]

theorem quote_ofBranch (tag : Text) (chain : List Branch) (i : Nat) {branch : Branch}
    (hnamed : branch.Named) :
    '"' ∉ (ofBranch tag chain i branch).value ↔ (ofBranch tag chain i branch).QuoteFree := by
  have halias : '"' ∉ (branch.alias?.map ("; let ".toList ++ ·)).getD [] :=
    (quote_clause (by decide) _).2 fun name hname => not_mem_of_isIdentifier (hnamed name hname) (by decide)
  have hguard := Guard.not_mem_conjunction_iff (c := '"') (by decide) (by decide)
    ((chain.take i).filterMap Branch.condition?) branch.condition?
  simp only [ofBranch, QuoteFree, List.mem_append, not_or, halias, not_false_eq_true, and_true, hguard,
    or_imp, forall_and, Option.mem_toList, Option.mem_def]

theorem quote_ofLoop (tag : Text) {loop : Loop} (hnamed : loop.Named) :
    '"' ∉ (ofLoop tag loop).value ↔ (ofLoop tag loop).QuoteFree := by
  have hitem : '"' ∉ loop.item := not_mem_of_isIdentifier hnamed.item (by decide)
  have hclause : '"' ∉ "let ".toList ++ loop.item ++ " of ".toList :=
    List.not_mem_append (List.not_mem_append (by decide) hitem) (by decide)
  have htrack : '"' ∉ (loop.track?.map ("; trackBy: ".toList ++ ·)).getD [] ↔
      ∀ key ∈ loop.track?, '"' ∉ key := quote_clause (by decide) _
  rw [ofLoop, QuoteFree, List.mem_append, List.mem_append, not_or, not_or, htrack]
  simp only [hclause, not_false_eq_true, true_and, List.forall_mem_cons, Option.mem_toList,
    Option.mem_def]

theorem quote_ofSpan (template : Text) (before : List (Segment Text)) (expression : Text) :
    '"' ∉ (ofSpan template before expression).value ↔ (ofSpan template before expression).QuoteFree := by
  simp only [ofSpan, QuoteFree, List.forall_mem_singleton]

/-! ## What is emitted -/

/-- The attributes that are written for what is read from a template: one for each branch of a chain
and one for each loop, whatever became of the bodies, and one for each interpolated expression. -/
inductive Emitted : Attribute → Prop
  | branch {text : Text} {block : Block} {chain : List Branch} {stop i : Nat} {branch : Branch}
      (tag : Text) (inner : Text → Text)
      (parsed : (Chain.ofBlock text block).result = .ok (chain, stop))
      (found : (chain.map fun branch => { branch with content := inner branch.content })[i]? =
        some branch) :
      Emitted (ofBranch tag (chain.map fun branch => { branch with content := inner branch.content })
        i branch)
  | loop {text : Text} {block : Block} {loop : Loop} (tag : Text) (inner : Text → Text)
      (parsed : (Loop.ofBlock text block).result = .ok loop) :
      Emitted (ofLoop tag { loop with content := inner loop.content })
  | span {template expression w : Text} {before after : List (Segment Text)}
      (parsed : Segment.ofText Interpolation.readExpression template =
        before ++ .hit expression w :: after) :
      Emitted (ofSpan template before expression)

/-- **An attribute reads up to the first quote in it**, and so it reads back exactly if no expression
in it has a quote. -/
theorem Emitted.read?_eq_iff {attr : Attribute} (h : Emitted attr) :
    attr.read? = some (attr.value.takeWhile (· != '"')) ∧
      (attr.read? = some attr.value ↔ attr.QuoteFree) := by
  cases h with
  | @branch text block chain stop i branch tag inner parsed found =>
    have hnamed : branch.Named := by
      rw [List.getElem?_map, Option.map_eq_some_iff] at found
      obtain ⟨source, hsource, rfl⟩ := found
      exact Chain.ofBlock_named parsed source (List.mem_of_getElem? hsource)
    have hwritten := written_ofBranch tag found hnamed
    exact ⟨hwritten.read?_eq, hwritten.read?_eq_value_iff.trans (quote_ofBranch _ _ _ hnamed)⟩
  | @loop text block loop tag inner parsed =>
    have hloop := Loop.ofBlock_named parsed
    have hnamed : Loop.Named { loop with content := inner loop.content } := ⟨hloop.item, hloop.track⟩
    have hwritten := written_ofLoop tag hnamed
    exact ⟨hwritten.read?_eq, hwritten.read?_eq_value_iff.trans (quote_ofLoop _ hnamed)⟩
  | span parsed =>
    have hwritten := written_ofSpan parsed
    exact ⟨hwritten.read?_eq, hwritten.read?_eq_value_iff.trans (quote_ofSpan _ _ _)⟩

/-- The attribute of bindings has no quote in its value, whatever the expressions are. -/
theorem quote_encode (bindings : List Interpolation.Binding) :
    '"' ∉ Interpolation.Binding.encode bindings := by
  intro hm
  obtain ⟨c, -, hc⟩ := List.mem_flatMap.1 hm
  rw [Interpolation.Binding.referQuote] at hc
  split at hc
  · exact absurd hc (by decide)
  next hquote =>
    obtain rfl := List.mem_singleton.1 hc
    exact hquote rfl

/-- A branch whose condition has a letter in quotes. -/
def quotedBranch (quote : Char) (alias? : Option Text) : Branch :=
  ⟨some ("a == ".toList ++ [quote, 'x', quote]), ['x'], alias?⟩

theorem read?_sample :
    (ofBranch Container.defaultTag [quotedBranch '\'' (some ['b']), ⟨none, ['y'], none⟩] 0
        (quotedBranch '\'' (some ['b']))).read? = some "a == 'x'; let b".toList ∧
      (ofLoop Container.defaultTag ⟨['x'], "xs".toList, ['y'], some "x['id']".toList⟩).read? =
        some "let x of xs; trackBy: x['id']".toList ∧
      (ofSpan "\x7b\x7b 'x' \x7d\x7d".toList [] "'x'".toList).read? = some "'x'".toList := by
  have hchain : (Chain.ofBlock "@if (a == 'x'; as b) \x7bx\x7d @else \x7by\x7d".toList
      ⟨"if".toList, 0, ⟨4, 20⟩, ⟨21, 24⟩⟩).result =
      .ok ([quotedBranch '\'' (some ['b']), ⟨none, ['y'], none⟩], 34) := by decide +kernel
  have hloop : (Loop.ofBlock "@for (x of xs; track x['id']) \x7by\x7d".toList
      ⟨"for".toList, 0, ⟨5, 29⟩, ⟨30, 33⟩⟩).result =
      .ok ⟨['x'], "xs".toList, ['y'], some "x['id']".toList⟩ := by decide +kernel
  have hspan : Segment.ofText Interpolation.readExpression "\x7b\x7b 'x' \x7d\x7d".toList =
      [] ++ .hit "'x'".toList "\x7b\x7b 'x' \x7d\x7d".toList :: [] := by rfl
  refine ⟨?_, ?_, ?_⟩
  · exact (Emitted.read?_eq_iff (.branch Container.defaultTag id hchain rfl)).2.2 (by decide +kernel)
  · exact (Emitted.read?_eq_iff (.loop Container.defaultTag id hloop)).2.2 (by decide +kernel)
  · exact (Emitted.read?_eq_iff (.span hspan)).2.2 (by decide +kernel)

/-- A double quote in a condition ends the value before its time. -/
theorem not_read?_of_quote : ¬ ∀ attr : Attribute, Emitted attr → attr.read? = some attr.value := by
  intro h
  have hchain : (Chain.ofBlock "@if (a == \"x\") \x7bx\x7d".toList
      ⟨"if".toList, 0, ⟨4, 14⟩, ⟨15, 18⟩⟩).result = .ok ([quotedBranch '"' none], 18) := by decide +kernel
  have hread := h (ofBranch Container.defaultTag [quotedBranch '"' none] 0 (quotedBranch '"' none))
    (.branch Container.defaultTag id hchain rfl)
  revert hread
  decide +kernel

end Attribute

end FlowTemplate
