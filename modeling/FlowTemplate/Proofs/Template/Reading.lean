/-
Reading the parts of a written template. A header in parentheses and a body in braces are found as
the groups they are, a loop header gives its variable, iterable and track expression, a branch header
its condition and alias, and the branches of a chain are read one after another up to its end.
-/
import FlowTemplate.Proofs.Template.Basic
import FlowTemplate.Proofs.Translation

namespace FlowTemplate

open Fault Delimiter

/-! ## Characters that cannot occur -/

namespace Template

theorem Name.continues {name : Name} {c : Char} (h : c ∈ name.text) : continuesIdentifier c = true := by
  have hvalid := name.valid
  cases hname : name.text with
  | nil => rw [hname] at h; cases h
  | cons x xs =>
    rw [hname] at hvalid h
    simp only [isIdentifier, Bool.and_eq_true, List.all_eq_true] at hvalid
    rcases List.mem_cons.1 h with rfl | h
    · simp [continuesIdentifier, hvalid.1]
    · exact hvalid.2 c h

theorem Name.not_mem (name : Name) {c : Char} (h : continuesIdentifier c = false) :
    c ∉ name.text := fun hm => by
  rw [Name.continues hm] at h
  cases h

theorem Name.ne_nil (name : Name) : name.text ≠ [] := fun h => by
  have := name.valid
  rw [h] at this
  cases this

theorem Name.balanced (name : Name) (kind : Delimiter) : kind.Balanced name.text := by
  cases kind <;> exact .of_free (name.not_mem (by decide)) (name.not_mem (by decide))

theorem isBlank_of_continuesIdentifier {c : Char} (h : continuesIdentifier c = true) :
    isBlank c = false := by
  rw [Bool.eq_false_iff]
  intro hb
  have key : ∀ n ∈ Text.blankCodes, continuesIdentifier (Char.ofNat n) = false := by decide
  have := key c.toNat (Text.isBlank_iff.1 hb)
  rw [Char.ofNat_toNat, h] at this
  cases this

theorem Name.trimmed (name : Name) : name.text.trim = name.text := by
  refine Text.trim_eq_self_iff.2 ⟨fun c hc => ?_, fun c hc => ?_⟩
  · exact isBlank_of_continuesIdentifier (Name.continues (List.mem_of_mem_head? hc))
  · exact isBlank_of_continuesIdentifier (Name.continues (List.mem_of_mem_getLast? hc))

/-! ## Groups -/

end Template

theorem skipBlanks_of_blank {blanks text : Text} (hb : blanks.Blank)
    (ht : ∀ c ∈ text.head?, isBlank c = false) : skipBlanks (blanks ++ text) 0 = blanks.length := by
  have htake : text.takeWhile isBlank = [] := by
    cases text with
    | nil => rfl
    | cons c cs => exact List.takeWhile_cons_of_neg (by simpa using ht c rfl)
  rw [skipBlanks, List.drop_zero, List.takeWhile_append_of_pos hb, htake]
  simp

theorem Delimiter.not_isBlank_opener (kind : Delimiter) : isBlank kind.opener = false := by
  cases kind <;> decide

/-- A balanced text between its delimiters is the group that is found. -/
theorem expectGroup_group {kind : Delimiter} {blanks inside : Text} (rest : Text)
    (hb : blanks.Blank) (hi : kind.Balanced inside) :
    expectGroup (blanks ++ kind.opener :: (inside ++ kind.closer :: rest)) 0 kind.opener =
      .ok ⟨blanks.length, blanks.length + inside.length + 2⟩ := by
  have hhead : ∀ c ∈ (kind.opener :: (inside ++ kind.closer :: rest)).head?, isBlank c = false := by
    simpa using kind.not_isBlank_opener
  have hskip := skipBlanks_of_blank hb hhead
  have hclose : kind.closingOffset? 1 (inside ++ kind.closer :: rest) = some inside.length :=
    closingOffset?_one_iff.2 ⟨inside, rest, rfl, rfl, hi⟩
  simp only [expectGroup, hskip]
  rw [if_pos (by simp), findClosing, List.drop_left]
  simp only [ofOpener?_opener, hclose, Except.map]
  congr 2
  omega

theorem Span.innerText_group (blanks inside rest : Text) (opener closer : Char) :
    Span.innerText ⟨blanks.length, blanks.length + inside.length + 2⟩
      (blanks ++ opener :: (inside ++ closer :: rest)) = inside := by
  have hcut : blanks ++ opener :: (inside ++ closer :: rest) =
      (blanks ++ [opener]) ++ (inside ++ closer :: rest) := by simp
  have hlen : (blanks ++ [opener]).length = blanks.length + 1 := by simp
  change Text.slice _ (blanks.length + 1) (blanks.length + inside.length + 1) = inside
  rw [hcut, ← hlen, show blanks.length + inside.length + 1 = (blanks ++ [opener]).length + inside.length
    by simp; omega]
  exact Text.slice_middle _ _ _

namespace Template

/-- A header and a body are found as the two groups of a block. -/
theorem groups_wrap (layout : Layout) {core body : Text} (rest : Text)
    (hcore : paren.Balanced core) (hbody : brace.Balanced body) :
    ∃ header span, Block.groups (layout.wrap core ++ (inBraces body ++ rest)) 0 = .ok (header, span) ∧
      header.innerText (layout.wrap core ++ (inBraces body ++ rest)) =
        layout.atStart.text ++ (core ++ layout.atEnd.text) ∧
      span.innerText (layout.wrap core ++ (inBraces body ++ rest)) = body ∧
      span.stop = (layout.wrap core ++ inBraces body).length := by
  generalize hinside : layout.atStart.text ++ (core ++ layout.atEnd.text) = inside
  have hi : paren.Balanced inside := by
    rw [← hinside]
    exact (layout.atStart.blank.balanced _).append (hcore.append (layout.atEnd.blank.balanced _))
  -- The text up to the closing parenthesis, and from there on.
  let front := layout.beforeHeader.text ++ '(' :: (inside ++ [')'])
  let back := layout.beforeBody.text ++ '{' :: (body ++ '}' :: rest)
  have htext : layout.wrap core ++ (inBraces body ++ rest) = front ++ back := by
    simp [Layout.wrap, inBraces, front, back, hinside]
  have hfront : front ++ back =
      layout.beforeHeader.text ++ paren.opener :: (inside ++ paren.closer :: back) := by
    simp [front, opener, closer]
  have hlen : front.length = layout.beforeHeader.text.length + inside.length + 2 := by
    simp [front]; omega
  have hfirst := expectGroup_group back layout.beforeHeader.blank hi
  have hback : expectGroup back 0 brace.opener = .ok _ :=
    @expectGroup_group brace _ _ rest layout.beforeBody.blank hbody
  have hsecond := expectGroup_append front back 0 brace.opener
  rw [Nat.add_zero, hback] at hsecond
  rw [← hfront, ← hlen] at hfirst
  refine ⟨⟨layout.beforeHeader.text.length, front.length⟩, Span.shift front.length
    ⟨layout.beforeBody.text.length, layout.beforeBody.text.length + body.length + 2⟩, ?_, ?_, ?_, ?_⟩
  · rw [htext, Block.groups]
    simp only [show '(' = paren.opener from rfl, show '{' = brace.opener from rfl, hfirst, bind,
      Except.bind, hsecond, shiftReading, pure, Except.pure]
  · rw [htext, hfront, hlen]
    exact Span.innerText_group _ _ _ _ _
  · rw [htext, Span.innerText_shift _ _ (by simp)]
    exact Span.innerText_group _ _ _ _ _
  · simp [Span.shift, Layout.wrap, inBraces, front, hinside]
    omega

theorem nameEnds_header (blanks : Blanks) (rest : Text) :
    nameEnds (blanks.text ++ '(' :: rest) = true := by
  cases hb : blanks.text with
  | nil => simp only [List.nil_append, nameEnds]; decide
  | cons c cs =>
    have hc : isBlank c = true := blanks.blank c (by rw [hb]; exact List.mem_cons_self)
    simp [nameEnds, Text.continuesName_of_isBlank hc]

theorem locate_front (keyword : Text) {text : Text} (h : nameEnds text = true) :
    locate ('@' :: keyword ++ text) keyword 0 =
      (Block.ofKeywordAt ('@' :: keyword ++ text) keyword 0).map some := by
  have hnext : afterKeyword? keyword ('@' :: keyword ++ text) = some text :=
    afterKeyword?_eq_some_iff.2 ⟨rfl, h⟩
  have hoffset : Text.offsetOf? (fun t => (afterKeyword? keyword t).isSome) ('@' :: keyword ++ text) =
      some 0 := by
    rw [List.cons_append, Text.offsetOf?, ← List.cons_append, hnext]
    rfl
  simp only [locate, List.drop_zero, hoffset]

theorem groups_front (keyword text : Text) :
    Block.groups ('@' :: keyword ++ text) (0 + 1 + keyword.length) =
      shiftReading ('@' :: keyword).length
        (fun (header, body) => (header.shift ('@' :: keyword).length, body.shift ('@' :: keyword).length))
        (Block.groups text 0) := by
  have hmoved := Block.groups_append ('@' :: keyword) text 0
  have hstart : ('@' :: keyword).length + 0 = 0 + 1 + keyword.length := by
    rw [List.length_cons]
    omega
  rwa [hstart] at hmoved

/-- A keyword with a header and a body behind it is the first block of its text. -/
theorem locate_block (keyword : Text) (layout : Layout) {core body : Text} (rest : Text)
    (hcore : paren.Balanced core) (hbody : brace.Balanced body) :
    ∃ block, locate ('@' :: keyword ++ (layout.wrap core ++ (inBraces body ++ rest))) keyword 0 =
        .ok (some block) ∧ block.start = 0 ∧
      block.stop = ('@' :: keyword ++ (layout.wrap core ++ inBraces body)).length ∧
      block.headerText ('@' :: keyword ++ (layout.wrap core ++ (inBraces body ++ rest))) =
        layout.atStart.text ++ (core ++ layout.atEnd.text) ∧
      block.bodyText ('@' :: keyword ++ (layout.wrap core ++ (inBraces body ++ rest))) = body := by
  obtain ⟨header, span, hgroups, hheader, hspan, hstop⟩ := groups_wrap layout rest hcore hbody
  obtain ⟨-, hhw, -, hsw⟩ := Block.groups_ok hgroups
  have hends : nameEnds (layout.wrap core ++ (inBraces body ++ rest)) = true := by
    rw [Layout.wrap, List.append_assoc]
    exact nameEnds_header _ _
  generalize htext : layout.wrap core ++ (inBraces body ++ rest) = text at *
  refine ⟨⟨keyword, 0, header.shift ('@' :: keyword).length, span.shift ('@' :: keyword).length⟩,
    ?_, rfl, ?_, ?_, ?_⟩
  · rw [locate_front keyword hends, Block.ofKeywordAt, groups_front, hgroups]
    rfl
  · simp only [Block.stop, Span.shift, hstop, List.length_append]
  · rw [← hheader]
    exact Span.innerText_shift _ _ hhw.stop_pos
  · rw [← hspan]
    exact Span.innerText_shift _ _ hsw.stop_pos

/-- A keyword with a header behind which no body can be read begins no block. -/
theorem locate_unread (keyword : Text) (beforeHeader : Blanks) {core back : Text} {fault : Fault}
    (hcore : paren.Balanced core) (hback : expectGroup back 0 '{' = .error fault) :
    ∃ found, locate ('@' :: keyword ++ (beforeHeader.text ++ '(' :: (core ++ ')' :: back)))
      keyword 0 = .error found := by
  have hfirst : expectGroup (beforeHeader.text ++ '(' :: (core ++ ')' :: back)) 0 '(' = .ok _ :=
    @expectGroup_group paren _ _ back beforeHeader.blank hcore
  have hcut : beforeHeader.text ++ '(' :: (core ++ ')' :: back) =
      (beforeHeader.text ++ '(' :: (core ++ [')'])) ++ back := by simp
  have hlen : (beforeHeader.text ++ '(' :: (core ++ [')'])).length + 0 =
      beforeHeader.text.length + core.length + 2 := by
    simp only [List.length_append, List.length_cons, List.length_nil]
    omega
  have hsecond := expectGroup_append (beforeHeader.text ++ '(' :: (core ++ [')'])) back 0 '{'
  rw [hback, ← hcut, hlen] at hsecond
  rw [locate_front keyword (nameEnds_header beforeHeader _), Block.ofKeywordAt, groups_front,
    Block.groups, hfirst]
  simp only [bind, Except.bind, hsecond, shiftReading]
  split
  next heq => cases heq
  next => exact ⟨_, rfl⟩
  next => exact ⟨_, rfl⟩

/-! ## Loops -/

theorem readIdentifier?_name (name : Name) {rest : Text}
    (h : ∀ c ∈ rest.head?, continuesIdentifier c = false) :
    readIdentifier? (name.text ++ rest) = some (name.text, rest) := by
  have hvalid := name.valid
  cases hname : name.text with
  | nil => exact absurd hname name.ne_nil
  | cons c cs =>
    rw [hname] at hvalid
    simp only [isIdentifier, Bool.and_eq_true, List.all_eq_true] at hvalid
    have htake : rest.takeWhile continuesIdentifier = [] := by
      cases rest with
      | nil => rfl
      | cons d ds => exact List.takeWhile_cons_of_neg (by simpa using h d rfl)
    have hdrop : rest.dropWhile continuesIdentifier = rest := by
      cases rest with
      | nil => rfl
      | cons d ds => exact List.dropWhile_cons_of_neg (by simpa using h d rfl)
    rw [List.cons_append, readIdentifier?, if_pos hvalid.1, List.takeWhile_append_of_pos hvalid.2,
      List.dropWhile_append_of_pos hvalid.2, htake, hdrop, List.append_nil]

theorem Expression.head (expression : Expression) :
    ∀ c ∈ expression.text.head?, isBlank c = false :=
  (Text.trim_eq_self_iff.1 expression.trimmed).1

theorem Expression.trimStart (expression : Expression) :
    expression.text.trimStart = expression.text := Text.trimStart_of_head expression.head

theorem Gap.head (gap : Gap) (rest : Text) :
    ∀ c ∈ (gap.text ++ rest).head?, continuesIdentifier c = false := by
  intro c hc
  have hmem : c ∈ gap.text := by
    obtain ⟨d, ds, hd⟩ := List.exists_cons_of_ne_nil gap.ne_nil
    rw [hd, List.cons_append, List.head?_cons, Option.mem_some] at hc
    rw [hd, hc]
    exact List.mem_cons_self
  rw [Bool.eq_false_iff]
  intro h
  have := gap.blank c hmem
  rw [isBlank_of_continuesIdentifier h] at this
  cases this

namespace LoopHeader

theorem clause?_clause (header : LoopHeader) :
    Loop.clause? header.clause = some (header.item.text, header.iterable.text) := by
  have hof : Text.trimStart ("of".toList ++ (header.afterOf.text ++ header.iterable.text)) =
      "of".toList ++ (header.afterOf.text ++ header.iterable.text) :=
    Text.trimStart_of_head (by simp; decide)
  have hne : header.iterable.text.isEmpty = false := by
    simpa using header.iterable.ne_nil
  simp only [Loop.clause?, clause, bind, readIdentifier?_name header.item (header.beforeOf.head _),
    Option.bind_some, Text.afterBlanks?_append header.beforeOf.blank header.beforeOf.ne_nil, hof,
    Text.after?_append, Text.afterBlanks?_append header.afterOf.blank header.afterOf.ne_nil,
    header.iterable.trimStart, hne]
  rfl

theorem trimmed_clause (header : LoopHeader) : header.clause.trim = header.clause := by
  have := Text.trim_append_of_ends header.item.trimmed header.iterable.trimmed header.item.ne_nil
    header.iterable.ne_nil (header.beforeOf.text ++ ("of".toList ++ header.afterOf.text))
  simpa [clause] using this

theorem semicolon_not_mem_clause (header : LoopHeader) : ';' ∉ header.clause := by
  simp only [clause, List.mem_append, not_or]
  exact ⟨header.item.not_mem (by decide), header.beforeOf.blank.not_mem (by decide), by decide,
    header.afterOf.blank.not_mem (by decide), header.no_semicolon⟩

/-- The header is cut behind the loop clause, and what follows gives the track expression. -/
theorem read (header : LoopHeader) :
    Loop.clause? ((Text.cut ';' (header.clause ++
        (header.track?.map TrackClause.source).getD [])).1.trim) =
        some (header.item.text, header.iterable.text) ∧
      Loop.trackOf ((Text.cut ';' (header.clause ++
        (header.track?.map TrackClause.source).getD [])).2.getD []) =
        header.track?.map fun clause => clause.key.text := by
  cases header.track? with
  | none =>
    simp only [Option.map_none, Option.getD_none, List.append_nil]
    rw [Text.cut_of_not_mem header.semicolon_not_mem_clause, header.trimmed_clause]
    exact ⟨header.clause?_clause, rfl⟩
  | some track =>
    simp only [Option.map_some, Option.getD_some, TrackClause.source]
    have hfree : ';' ∉ header.clause ++ track.beforeSemicolon.text := by
      simp only [List.mem_append, not_or]
      exact ⟨header.semicolon_not_mem_clause, track.beforeSemicolon.blank.not_mem (by decide)⟩
    rw [← List.append_assoc, Text.cut_append_cons _ hfree]
    have hclause := Text.trim_pad (a := []) .nil track.beforeSemicolon.blank header.trimmed_clause
    rw [List.nil_append] at hclause
    refine ⟨by rw [hclause]; exact header.clause?_clause, ?_⟩
    have htrim : Text.trim ("track".toList ++ (track.afterTrack.text ++ track.key.text)) =
        "track".toList ++ (track.afterTrack.text ++ track.key.text) :=
      Text.trim_append_of_ends (by decide) track.key.trimmed (by decide) track.key.ne_nil _
    have hrest := Text.trim_pad (b := []) track.afterSemicolon.blank .nil htrim
    rw [List.append_nil] at hrest
    have hne : track.key.text.isEmpty = false := by
      simpa using track.key.ne_nil
    simp only [Option.getD_some, Loop.trackOf, hrest, Loop.trackClause?, bind, Text.after?_append,
      Option.bind_some, Text.afterBlanks?_append track.afterTrack.blank track.afterTrack.ne_nil,
      track.key.trimStart, hne]
    simp [track.key.trimmed]

end LoopHeader

/-! ## Conditions -/

end Template

namespace Condition

theorem cutLast?_append {x y : Text} (h : ';' ∉ y) : cutLast? (x ++ ';' :: y) = some (x, y) := by
  have hr : ';' ∉ y.reverse := fun hm => h (List.mem_reverse.1 hm)
  rw [cutLast?, List.reverse_append, List.reverse_cons, List.append_assoc, List.singleton_append,
    Text.cut_append_cons _ hr]
  simp

theorem cutLast?_eq_some {text x y : Text} (h : cutLast? text = some (x, y)) :
    text = x ++ ';' :: y := by
  unfold cutLast? at h
  split at h
  next after before hcut =>
    simp only [Option.some.injEq, Prod.mk.injEq] at h
    obtain ⟨rfl, rfl⟩ := h
    have := congrArg List.reverse (Text.cut_eq_some hcut).1
    simpa using this
  next => cases h

theorem aliasClause?_eq_some {clause name : Text} (h : aliasClause? clause = some name) :
    ∃ gap : Text, gap.Blank ∧ gap ≠ [] ∧ isIdentifier name = true ∧
      clause.trim = "as".toList ++ (gap ++ name) := by
  simp only [aliasClause?, bind, Option.bind_eq_some_iff] at h
  obtain ⟨rest, ⟨after, has, hgap⟩, h⟩ := h
  split at h
  next hvalid =>
    cases h
    obtain ⟨gap, hg, hne, rfl⟩ := Text.afterBlanks?_eq_some hgap
    exact ⟨gap, hg, hne, hvalid, Text.after?_eq_some_iff.1 has⟩
  next => cases h

end Condition

namespace Template

theorem AliasClause.semicolon_not_mem (clause : AliasClause) :
    ';' ∉ clause.afterSemicolon.text ++ ("as".toList ++ (clause.afterAs.text ++ clause.name.text)) := by
  simp only [List.mem_append, not_or]
  exact ⟨clause.afterSemicolon.blank.not_mem (by decide), by decide,
    clause.afterAs.blank.not_mem (by decide), clause.name.not_mem (by decide)⟩

/-- The alias that a clause names is read back. -/
theorem AliasClause.read (clause : AliasClause) :
    Condition.aliasClause?
        (clause.afterSemicolon.text ++ ("as".toList ++ (clause.afterAs.text ++ clause.name.text))) =
      some clause.name.text := by
  have htrim : Text.trim ("as".toList ++ (clause.afterAs.text ++ clause.name.text)) =
      "as".toList ++ (clause.afterAs.text ++ clause.name.text) :=
    Text.trim_append_of_ends (by decide) clause.name.trimmed (by decide) clause.name.ne_nil _
  have hrest := Text.trim_pad (b := []) clause.afterSemicolon.blank .nil htrim
  rw [List.append_nil] at hrest
  have hname : clause.name.text.trimStart = clause.name.text :=
    Text.trimStart_of_head (Text.trim_eq_self_iff.1 clause.name.trimmed).1
  simp only [Condition.aliasClause?, hrest, bind, Text.after?_append, Option.bind_some,
    Text.afterBlanks?_append clause.afterAs.blank clause.afterAs.ne_nil, hname, clause.name.valid]
  rfl

theorem ofHeader_of_plain {text : Text} (ht : text.trim = text) (hp : ¬ EndsInAlias text) :
    Condition.ofHeader text = ⟨text, none⟩ := by
  simp only [Condition.ofHeader, ht]
  split
  · rfl
  next expression clause hcut =>
    split
    next c cs name hname =>
      exfalso
      obtain ⟨gap, hg, hne, hvalid, hclause⟩ := Condition.aliasClause?_eq_some hname
      have htext := Condition.cutLast?_eq_some hcut
      obtain ⟨blanks, hb, hstart⟩ := Text.exists_blank_append_trimStart clause
      have hnil : clause.trimStart ≠ [] := by
        intro h
        rw [Text.trim, h] at hclause
        cases hclause
      -- The clause ends where the text does, so there are no blanks at its end to trim.
      have hlast : text.getLast? = clause.trimStart.getLast? := by
        rw [htext, hstart, ← List.cons_append, ← List.append_assoc,
          List.getLast?_append_of_ne_nil _ hnil, ← hstart]
      have hend : clause.trimStart.trimEnd = clause.trimStart :=
        Text.trimEnd_of_last (by rw [← hlast]; exact (Text.trim_eq_self_iff.1 ht).2)
      rw [Text.trim, hend] at hclause
      rw [hclause] at hstart
      exact hp ⟨c :: cs, blanks, gap, name, List.cons_ne_nil _ _, hb, hg, hne, hvalid,
        by rw [← hstart]; exact htext⟩
    · rfl

section

variable {condition : Text} (hne : condition ≠ []) (htrim : condition.trim = condition)
  (alias? : Option AliasClause)

include hne htrim

theorem trim_withAlias : (condition ++ (alias?.map AliasClause.source).getD []).trim =
    condition ++ (alias?.map AliasClause.source).getD [] := by
  cases alias? with
  | none => simpa using htrim
  | some clause =>
    have := Text.trim_append_of_ends htrim clause.name.trimmed hne clause.name.ne_nil
      (clause.beforeSemicolon.text ++
        ';' :: (clause.afterSemicolon.text ++ ("as".toList ++ clause.afterAs.text)))
    simpa [AliasClause.source] using this

/-- A condition between blanks, with an alias clause or without one, is read as what it is. Without
one it must not look as if it had one. -/
theorem ofHeader_withAlias (hplain : alias? = none → ¬ EndsInAlias condition) {before after : Text}
    (hbefore : before.Blank) (hafter : after.Blank) :
    Condition.ofHeader (before ++ ((condition ++ (alias?.map AliasClause.source).getD []) ++ after)) =
      ⟨condition, alias?.map fun clause => clause.name.text⟩ := by
  have htrimmed := trim_withAlias hne htrim alias?
  have hpad := Text.trim_pad hbefore hafter htrimmed
  have hwhole : Condition.ofHeader
      (before ++ ((condition ++ (alias?.map AliasClause.source).getD []) ++ after)) =
      Condition.ofHeader (condition ++ (alias?.map AliasClause.source).getD []) := by
    simp only [Condition.ofHeader, hpad, htrimmed]
  rw [hwhole]
  cases alias? with
  | none =>
    simp only [Option.map_none, Option.getD_none, List.append_nil]
    exact ofHeader_of_plain htrim (hplain rfl)
  | some clause =>
    have hexpr : Text.trim (condition ++ clause.beforeSemicolon.text) = condition :=
      Text.trim_pad (a := []) .nil clause.beforeSemicolon.blank htrim
    have hsource : condition ++ clause.source = (condition ++ clause.beforeSemicolon.text) ++
        ';' :: (clause.afterSemicolon.text ++
          ("as".toList ++ (clause.afterAs.text ++ clause.name.text))) := by
      simp [AliasClause.source]
    simp only [Option.map_some, Option.getD_some] at htrimmed ⊢
    simp only [Condition.ofHeader, htrimmed]
    rw [hsource, Condition.cutLast?_append clause.semicolon_not_mem]
    simp only [clause.read]
    obtain ⟨c, cs, rfl⟩ := List.exists_cons_of_ne_nil hne
    rw [List.cons_append] at hexpr ⊢
    simp only [hexpr]

end

namespace BranchHeader

/-- The condition and its alias clause. -/
def core (header : BranchHeader) : Text :=
  header.condition.text ++ (header.alias?.map AliasClause.source).getD []

theorem read (header : BranchHeader) :
    Condition.ofHeader (header.atStart.text ++ (header.core ++ header.atEnd.text)) =
      ⟨header.condition.text, header.alias?.map fun clause => clause.name.text⟩ :=
  ofHeader_withAlias header.condition.ne_nil header.condition.trimmed header.alias? header.plain
    header.atStart.blank header.atEnd.blank

end BranchHeader

end Template

end FlowTemplate
