/-
What the readers of groups, blocks and chains give: where the spans they return lie, and which
faults they can end with. A group is only ever sought where its opener stands, so the faults of a
search in the wrong place do not occur.
-/
import FlowTemplate.Branch
import FlowTemplate.Loop
import FlowTemplate.Proofs.Balance
import FlowTemplate.Proofs.Except
import FlowTemplate.Proofs.Text

namespace FlowTemplate

/-- A span of a text that has at least its two delimiters in it. -/
structure Span.Encloses (span : Span) (text : Text) : Prop where
  wide : span.start + 1 < span.stop
  inside : span.stop ≤ text.length

theorem Text.Blank.balanced {blanks : Text} (h : blanks.Blank) (kind : Delimiter) :
    kind.Balanced blanks := by
  cases kind <;> exact .of_free (h.not_mem (by decide)) (h.not_mem (by decide))

namespace Delimiter.Balanced

variable {kind : Delimiter} {text : Text}

theorem trimStart (h : kind.Balanced text) : kind.Balanced text.trimStart := by
  obtain ⟨blanks, hb, htext⟩ := Text.exists_blank_append_trimStart text
  rw [htext] at h
  exact h.of_append_left (hb.balanced kind)

end Delimiter.Balanced

/-! ## Groups -/

theorem Delimiter.ofOpener?_opener (kind : Delimiter) : ofOpener? kind.opener = some kind := by
  cases kind <;> decide

theorem findClosing_ok {text : Text} {index closing : Nat}
    (h : findClosing text index = .ok closing) : index < closing ∧ closing < text.length := by
  unfold findClosing at h
  split at h
  · cases h
  next c cs htext =>
  split at h
  · cases h
  next kind hkind =>
  split at h
  · cases h
  next offset hoffset =>
  obtain ⟨inside, rest, hcs, hlen, -⟩ := Delimiter.closingOffset?_one_iff.1 hoffset
  have := congrArg List.length htext
  simp only [List.length_drop, List.length_cons, hcs, List.length_append] at this
  cases h
  omega

theorem skipBlanks_ge (text : Text) (index : Nat) : index ≤ skipBlanks text index := by
  simp [skipBlanks]

theorem expectGroup_ok {text : Text} {index : Nat} {opener : Char} {span : Span}
    (h : expectGroup text index opener = .ok span) : index ≤ span.start ∧ span.Encloses text := by
  simp only [expectGroup] at h
  split at h
  · cases hc : findClosing text (skipBlanks text index) with
    | error fault => rw [hc] at h; cases h
    | ok closing =>
      rw [hc] at h
      cases h
      obtain ⟨hlt, hlen⟩ := findClosing_ok hc
      exact ⟨skipBlanks_ge text index, by simp; omega, by simp; omega⟩
  · cases h

/-- The faults that the search for a group ends with, when the group is one of the two kinds. -/
def Fault.OfGroup (fault : Fault) : Prop :=
  (∃ position, fault = .unbalanced position) ∨ ∃ position header, fault = .malformedHeader position header

/-- Behind an opener the only thing that can go wrong is that the group does not close. -/
theorem findClosing_of_opener (kind : Delimiter) {text : Text} {index : Nat}
    (h : text[index]? = some kind.opener) :
    (∃ closing, findClosing text index = .ok closing) ∨
      findClosing text index = .error (.unbalanced index) := by
  obtain ⟨cs, hcs⟩ : ∃ cs, text.drop index = kind.opener :: cs := by
    rw [← List.head?_drop] at h
    exact List.head?_eq_some_iff.1 h
  simp only [findClosing, hcs, Delimiter.ofOpener?_opener]
  cases kind.closingOffset? 1 cs with
  | none => exact .inr rfl
  | some offset => exact .inl ⟨_, rfl⟩

theorem expectGroup_error (kind : Delimiter) {text : Text} {index : Nat} {fault : Fault}
    (h : expectGroup text index kind.opener = .error fault) : fault.OfGroup := by
  simp only [expectGroup] at h
  split at h
  next hopener =>
    rcases findClosing_of_opener kind hopener with ⟨closing, hclosing⟩ | hunbalanced
    · rw [hclosing] at h
      cases h
    · rw [hunbalanced] at h
      cases h
      exact .inl ⟨_, rfl⟩
  · cases h; exact .inr ⟨_, _, rfl⟩

namespace Block

theorem groups_eq_ok_iff {text : Text} {index : Nat} {header body : Span} :
    groups text index = .ok (header, body) ↔
      expectGroup text index '(' = .ok header ∧ expectGroup text header.stop '{' = .ok body := by
  simp only [groups, Except.bind_eq_ok_iff]
  constructor
  · rintro ⟨first, hfirst, second, hsecond, hpair⟩
    cases hpair
    exact ⟨hfirst, hsecond⟩
  · rintro ⟨hheader, hbody⟩
    exact ⟨header, hheader, body, hbody, rfl⟩

theorem groups_ok {text : Text} {index : Nat} {header body : Span}
    (h : groups text index = .ok (header, body)) :
    index ≤ header.start ∧ header.Encloses text ∧ header.stop ≤ body.start ∧ body.Encloses text := by
  obtain ⟨hheader, hbody⟩ := groups_eq_ok_iff.1 h
  obtain ⟨h₁, h₂⟩ := expectGroup_ok hheader
  obtain ⟨h₃, h₄⟩ := expectGroup_ok hbody
  exact ⟨h₁, h₂, h₃, h₄⟩

theorem groups_error {text : Text} {index : Nat} {fault : Fault}
    (h : groups text index = .error fault) : fault.OfGroup := by
  simp only [groups, Except.bind_eq_error_iff] at h
  rcases h with hheader | ⟨header, -, hbody | ⟨body, -, hpair⟩⟩
  · exact expectGroup_error .paren hheader
  · exact expectGroup_error .brace hbody
  · cases hpair

/-- A block that was read from a text: its spans lie in the text one behind the other. -/
structure Within (block : Block) (text : Text) : Prop where
  header_after : block.start + 1 + block.keyword.length ≤ block.header.start
  header : block.header.Encloses text
  body_after : block.header.stop ≤ block.body.start
  body : block.body.Encloses text

theorem Within.start_lt_body {block : Block} {text : Text} (h : block.Within text) :
    block.start < block.body.start := by
  have := h.header_after
  have := h.header.wide
  have := h.body_after
  omega

theorem Within.start_lt_stop {block : Block} {text : Text} (h : block.Within text) :
    block.start < block.stop := by
  have hbody := h.start_lt_body
  have hwide := h.body.wide
  simp only [stop]
  omega

theorem ofKeywordAt_ok {text keyword : Text} {start : Nat} {block : Block}
    (h : ofKeywordAt text keyword start = .ok block) :
    block.keyword = keyword ∧ block.start = start ∧ block.Within text := by
  unfold ofKeywordAt at h
  split at h
  next header body hg =>
    cases h
    obtain ⟨h₁, h₂, h₃, h₄⟩ := groups_ok hg
    exact ⟨rfl, rfl, h₁, h₂, h₃, h₄⟩
  · cases h
  · cases h

theorem ofKeywordAt_error {text keyword : Text} {start : Nat} {fault : Fault}
    (h : ofKeywordAt text keyword start = .error fault) :
    (∃ position, fault = .unbalanced position) ∨ ∃ header, fault = .malformedHeader start header := by
  unfold ofKeywordAt at h
  split at h
  · cases h
  · cases h; exact .inr ⟨_, rfl⟩
  next found hne hg =>
    cases h
    rcases groups_error hg with hu | ⟨position, header, rfl⟩
    · exact .inl hu
    · exact absurd rfl (hne position header)

end Block

/-! ## The first block -/

theorem Text.offsetOf?_eq_some {p : Text → Bool} {text : Text} {offset : Nat}
    (h : offsetOf? p text = some offset) : offset < text.length ∧ p (text.drop offset) = true := by
  induction text generalizing offset with
  | nil => cases h
  | cons c cs ih =>
    rw [offsetOf?] at h
    split at h
    next hp =>
      cases h
      exact ⟨by simp, hp⟩
    · obtain ⟨before, hb, rfl⟩ := Option.map_eq_some_iff.1 h
      obtain ⟨hlt, hp⟩ := ih hb
      exact ⟨by simp; omega, hp⟩

theorem afterKeyword?_eq_some_iff {keyword text rest : Text} :
    afterKeyword? keyword text = some rest ↔ text = '@' :: keyword ++ rest ∧ nameEnds rest = true := by
  rw [afterKeyword?, Option.filter_eq_some_iff, Text.after?_eq_some_iff]

theorem locate_ok {text keyword : Text} {start : Nat} {block : Block}
    (h : locate text keyword start = .ok (some block)) :
    block.keyword = keyword ∧ start ≤ block.start ∧ block.Within text := by
  unfold locate at h
  split at h
  · cases h
  next distance hd =>
    cases hk : Block.ofKeywordAt text keyword (start + distance) with
    | error fault => rw [hk] at h; cases h
    | ok found =>
      rw [hk] at h
      cases h
      obtain ⟨h₁, h₂, h₃⟩ := Block.ofKeywordAt_ok hk
      exact ⟨h₁, by omega, h₃⟩

/-- A search for a block ends in one of two faults, and reports a malformed header where the keyword
stands. -/
theorem locate_error {text keyword : Text} {start : Nat} {fault : Fault}
    (h : locate text keyword start = .error fault) :
    (∃ position, fault = .unbalanced position) ∨
      ∃ position header, fault = .malformedHeader position header ∧ start ≤ position ∧
        position + keyword.length + 1 ≤ text.length := by
  unfold locate at h
  split at h
  · cases h
  next distance hd =>
    cases hk : Block.ofKeywordAt text keyword (start + distance) with
    | ok found => rw [hk] at h; cases h
    | error found =>
      rw [hk] at h
      cases h
      rcases Block.ofKeywordAt_error hk with hu | ⟨header, rfl⟩
      · exact .inl hu
      · obtain ⟨hlt, hkeyword⟩ := Text.offsetOf?_eq_some hd
        obtain ⟨rest, hrest⟩ := Option.isSome_iff_exists.1 hkeyword
        have := congrArg List.length (afterKeyword?_eq_some_iff.1 hrest).1
        simp only [List.drop_drop, List.length_drop, List.length_append, List.length_cons] at this hlt
        exact .inr ⟨_, header, rfl, by omega, by omega⟩

/-! ## Chains -/

namespace Chain

theorem afterElseIf?_suffix {text rest : Text} (h : afterElseIf? text = some rest) :
    rest <:+ text := by
  simp only [afterElseIf?, bind, Option.bind_eq_some_iff] at h
  obtain ⟨_, ⟨_, helse, hblanks⟩, _, hif, h⟩ := h
  split at h
  · cases h
    exact (Text.trimStart_suffix _).trans <| (Text.after?_suffix hif).trans <|
      (Text.afterBlanks?_suffix hblanks).trans <| (Text.after?_suffix helse).trans <|
      Text.trimStart_suffix _
  · cases h

theorem afterElse?_suffix {text rest : Text} (h : afterElse? text = some rest) :
    rest <:+ text := by
  simp only [afterElse?, bind, Option.bind_eq_some_iff] at h
  obtain ⟨_, helse, h⟩ := h
  split at h
  · cases h
    exact (Text.trimStart_suffix _).trans <| (Text.after?_suffix helse).trans <|
      Text.trimStart_suffix _
  · cases h

theorem asContinuation_eq_ok {α : Type} {index : Nat} {result : Except Fault α} {value : α} :
    asContinuation index result = .ok value ↔ result = .ok value := by
  rcases result with (_ | _ | _ | _ | _ | _) | _ <;> simp [asContinuation]

/-- A group that is missing or open breaks the chain, which is all that can go wrong. -/
theorem asContinuation_error {α : Type} {index : Nat} {result : Except Fault α} {fault : Fault}
    (hresult : ∀ found, result = .error found → found.OfGroup)
    (h : asContinuation index result = .error fault) : fault = .brokenContinuation index := by
  cases result with
  | ok value => simp [asContinuation] at h
  | error found =>
    rcases hresult found rfl with ⟨position, rfl⟩ | ⟨position, header, rfl⟩ <;>
      simpa [asContinuation] using h.symm

/-- The two ways in which a chain goes on: an `@else if` with a header and a body, and an `@else` with
a body. -/
theorem continuation_cases {text : Text} {index : Nat} {branch : Branch} {next : Nat}
    (h : continuation text index = .ok (some (branch, next))) :
    (∃ rest header body, afterElseIf? (text.drop index) = some rest ∧
        Block.groups text (text.length - rest.length) = .ok (header, body) ∧
        branch = .ofParts text header body ∧ next = body.stop) ∨
      ∃ rest body, afterElse? (text.drop index) = some rest ∧
        expectGroup text (text.length - rest.length) '{' = .ok body ∧
        branch = .ofElse text body ∧ next = body.stop := by
  simp only [continuation] at h
  split at h
  next rest hrest =>
    rw [asContinuation_eq_ok] at h
    cases hg : Block.groups text (text.length - rest.length) with
    | error fault => rw [hg] at h; cases h
    | ok spans =>
      rw [hg] at h
      cases h
      exact .inl ⟨rest, spans.1, spans.2, hrest, hg, rfl, rfl⟩
  next =>
    split at h
    next rest hrest =>
      rw [asContinuation_eq_ok] at h
      cases hg : expectGroup text (text.length - rest.length) '{' with
      | error fault => rw [hg] at h; cases h
      | ok body =>
        rw [hg] at h
        cases h
        exact .inr ⟨rest, body, hrest, hg, rfl, rfl⟩
    next => cases h

theorem continuation_ok {text : Text} {index : Nat} {branch : Branch} {next : Nat}
    (h : continuation text index = .ok (some (branch, next))) :
    index < next ∧ next ≤ text.length := by
  rcases continuation_cases h with ⟨rest, header, body, hrest, hg, -, rfl⟩ | ⟨rest, body, hrest, hg, -, rfl⟩
  · have hlen := (afterElseIf?_suffix hrest).length_le
    rw [List.length_drop] at hlen
    obtain ⟨h₁, ⟨h₂, h₃⟩, h₄, h₅, h₆⟩ := Block.groups_ok hg
    omega
  · have hlen := (afterElse?_suffix hrest).length_le
    rw [List.length_drop] at hlen
    obtain ⟨h₁, h₂, h₃⟩ := expectGroup_ok hg
    omega

theorem continuation_error {text : Text} {index : Nat} {fault : Fault}
    (h : continuation text index = .error fault) : fault = .brokenContinuation index := by
  simp only [continuation] at h
  split at h
  next rest hrest =>
    refine asContinuation_error (fun found hf => ?_) h
    cases hg : Block.groups text (text.length - rest.length) with
    | ok spans => rw [hg] at hf; cases hf
    | error other => rw [hg] at hf; cases hf; exact Block.groups_error hg
  next =>
    split at h
    next rest hrest =>
      refine asContinuation_error (fun found hf => ?_) h
      cases hg : expectGroup text (text.length - rest.length) '{' with
      | ok body => rw [hg] at hf; cases hf
      | error other => rw [hg] at hf; cases hf; exact expectGroup_error .brace hg
    next => cases h

/-- One branch more of a chain, or its end. -/
theorem result_continueFrom_succ (text : Text) (fuel : Nat) (last : Branch) (stop : Nat) :
    (continueFrom text (fuel + 1) last stop).result =
      if last.isElse then .ok ([], stop)
      else
        match continuation text stop with
        | .ok (some (branch, next)) =>
          (continueFrom text fuel branch next).result.map fun (branches, finish) =>
            (branch :: branches, finish)
        | _ => .ok ([], stop) := by
  rw [continueFrom]
  split
  · rfl
  · cases hc : continuation text stop with
    | error fault =>
      obtain rfl := continuation_error hc
      simp [Except.map]
    | ok found =>
      cases found with
      | none => rfl
      | some found =>
        obtain ⟨branch, next⟩ := found
        simp only [Traced.result_bind, Traced.result_pure]
        cases (continueFrom text fuel branch next).result <;> rfl

/-- A chain ends where it is, or one branch more is read and the rest of the chain behind it. -/
theorem continueFrom_cases {text : Text} {fuel : Nat} {last : Branch} {stop finish : Nat}
    {branches : List Branch}
    (h : (continueFrom text (fuel + 1) last stop).result = .ok (branches, finish)) :
    branches = [] ∧ finish = stop ∨ ∃ branch next rest, last.isElse = false ∧
      continuation text stop = .ok (some (branch, next)) ∧ branches = branch :: rest ∧
      (continueFrom text fuel branch next).result = .ok (rest, finish) := by
  rw [result_continueFrom_succ] at h
  split at h
  · cases h
    exact .inl ⟨rfl, rfl⟩
  next helse =>
    split at h
    next branch next hfound =>
      cases hrest : (continueFrom text fuel branch next).result with
      | error fault => rw [hrest] at h; cases h
      | ok result =>
        rw [hrest] at h
        cases h
        exact .inr ⟨branch, next, result.1, Bool.eq_false_iff.2 helse, hfound, rfl, hrest⟩
    next =>
      cases h
      exact .inl ⟨rfl, rfl⟩

/-- A chain can be read to its end. -/
theorem continueFrom_ok (text : Text) (fuel : Nat) (last : Branch) (stop : Nat)
    (hstop : stop ≤ text.length) :
    ∃ branches finish, (continueFrom text fuel last stop).result = .ok (branches, finish) ∧
      stop ≤ finish ∧ finish ≤ text.length := by
  induction fuel generalizing last stop with
  | zero => exact ⟨[], stop, rfl, Nat.le_refl _, hstop⟩
  | succ fuel ih =>
    rw [result_continueFrom_succ]
    split
    · exact ⟨[], stop, rfl, Nat.le_refl _, hstop⟩
    · split
      next branch next hc =>
        obtain ⟨hlt, hle⟩ := continuation_ok hc
        obtain ⟨branches, finish, hrest, h₁, h₂⟩ := ih branch next hle
        exact ⟨branch :: branches, finish, by rw [hrest]; rfl, by omega, h₂⟩
      next => exact ⟨[], stop, rfl, Nat.le_refl _, hstop⟩

/-- More steps than the rest of the text has characters change nothing. -/
theorem continueFrom_fuel (text : Text) (fuel more : Nat) (last : Branch) (stop : Nat)
    (hf : text.length - stop ≤ fuel) (hm : text.length - stop ≤ more) :
    (continueFrom text fuel last stop).result = (continueFrom text more last stop).result := by
  induction fuel generalizing more last stop with
  | zero =>
    cases more with
    | zero => rfl
    | succ more =>
      rw [result_continueFrom_succ]
      split
      · rfl
      · split
        next branch next hc =>
          have := continuation_ok hc
          omega
        next => rfl
  | succ fuel ih =>
    cases more with
    | zero =>
      rw [result_continueFrom_succ]
      split
      · rfl
      · split
        next branch next hc =>
          have := continuation_ok hc
          omega
        next => rfl
    | succ more =>
      rw [result_continueFrom_succ, result_continueFrom_succ]
      split
      · rfl
      · split
        next branch next hc =>
          have := continuation_ok hc
          rw [ih more branch next (by omega) (by omega)]
        next => rfl

theorem result_ofBlock (text : Text) (block : Block) :
    (ofBlock text block).result =
      (continueFrom text text.length (.ofParts text block.header block.body) block.stop).result.map
        fun (branches, stop) => (.ofParts text block.header block.body :: branches, stop) := by
  simp only [ofBlock, Traced.result_bind, Traced.result_pure]
  cases (continueFrom text text.length (.ofParts text block.header block.body) block.stop).result <;>
    rfl

/-- The first branch of a chain is that of its block, and the others continue it. -/
theorem ofBlock_cases {text : Text} {block : Block} {branches : List Branch} {finish : Nat}
    (h : (ofBlock text block).result = .ok (branches, finish)) :
    ∃ rest, branches = .ofParts text block.header block.body :: rest ∧
      (continueFrom text text.length (.ofParts text block.header block.body) block.stop).result =
        .ok (rest, finish) := by
  rw [result_ofBlock] at h
  cases hrest : (continueFrom text text.length (.ofParts text block.header block.body)
      block.stop).result with
  | error fault => rw [hrest] at h; cases h
  | ok result =>
    rw [hrest] at h
    cases h
    exact ⟨result.1, rfl, rfl⟩

/-- Every block that was read begins a chain. -/
theorem ofBlock_ok {text : Text} {block : Block} (hb : block.Within text) :
    ∃ branches stop, (ofBlock text block).result =
        .ok (.ofParts text block.header block.body :: branches, stop) ∧
      block.stop ≤ stop ∧ stop ≤ text.length := by
  obtain ⟨branches, stop, hrest, h₁, h₂⟩ := continueFrom_ok text text.length
    (.ofParts text block.header block.body) block.stop hb.body.inside
  exact ⟨branches, stop, by rw [result_ofBlock, hrest]; rfl, h₁, h₂⟩

end Chain

/-! ## Loops -/

namespace Loop

/-- The track expression in what follows a loop clause. -/
def trackOf (rest : Text) : Option Text :=
  if rest.trim.isEmpty then none else (trackClause? rest.trim).map Text.trim

theorem result_track (rest : Text) : (track rest).result = .ok (trackOf rest) := by
  simp only [track, trackOf]
  split
  · rfl
  · cases trackClause? rest.trim <;> simp [Except.map]

theorem result_ofBlock (text : Text) (block : Block) :
    (ofBlock text block).result =
      match clause? ((block.headerText text).trim.cut ';').1.trim with
      | none => .error (.malformedHeader block.start (block.headerText text).trim)
      | some (item, iterable) =>
        .ok ⟨item, iterable.trim, block.bodyText text,
          trackOf (((block.headerText text).trim.cut ';').2.getD [])⟩ := by
  simp only [ofBlock]
  cases clause? ((block.headerText text).trim.cut ';').1.trim with
  | none => rfl
  | some parts =>
    simp only [Traced.result_bind, result_track, Traced.result_pure]
    rfl

/-- The only fault of a loop is that its header cannot be read. -/
theorem ofBlock_error {text : Text} {block : Block} {fault : Fault}
    (h : (ofBlock text block).result = .error fault) :
    ∃ header, fault = .malformedHeader block.start header := by
  rw [result_ofBlock] at h
  split at h
  · cases h; exact ⟨_, rfl⟩
  · cases h

end Loop

end FlowTemplate
