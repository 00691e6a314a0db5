import LayoutScript.Proofs.Tree.TargetReaders

/-!
Declarations and assignments. Both put a target in front of an assignment sign, and differ only in
how the target is read. The same tokens are a target of a declaration and of an assignment, and
stand for the same target, unless levels of nesting run out.
-/

namespace LayoutScript

open Parse

/-- Every value that a reader gives has a property. -/
def OnlyGives {α : Type} (reader : Parse α) (holds : α → Prop) : Prop :=
  ∀ feed value after, reader.run feed = .ok (value, after) → holds value

section Giving

variable {α β : Type} {holds : β → Prop}

theorem only_gives_bind {reader : Parse α} {next : α → Parse β}
    (rest : ∀ value, OnlyGives (next value) holds) : OnlyGives (reader >>= next) holds := by
  intro feed result after run
  obtain ⟨value, between, _, run⟩ := run_bind_inv run
  exact rest value between result after run

theorem only_gives_pure {value : β} (given : holds value) : OnlyGives (pure value) holds := by
  intro feed result after run
  cases run
  exact given

theorem only_gives_unexpected {expected : Expectation} : OnlyGives (unexpected expected) holds := by
  refine only_gives_bind fun token => ?_
  intro feed result after run
  split at run
  · cases run
  · cases run

end Giving

def Statement.isAssignment : Statement → Bool
  | .assign _ _ _ => true
  | _ => false

section Kinds

variable (limit fuel depth : Nat)

theorem declaration_no_assignment :
    OnlyGives (declaration limit (fuel + 1) depth) fun tree => tree.isAssignment = false := by
  rw [declaration]
  refine only_gives_bind fun start => only_gives_bind fun target => ?_
  refine only_gives_bind fun sign => only_gives_bind fun value => ?_
  exact only_gives_bind fun span => only_gives_bind fun _ => only_gives_pure rfl

theorem conditioned_no_assignment {make : Span → Expression → Block → Statement}
    (makes : ∀ span condition body, (make span condition body).isAssignment = false) :
    OnlyGives (conditioned limit (fuel + 1) depth make) fun tree => tree.isAssignment = false := by
  rw [conditioned]
  refine only_gives_bind fun start => only_gives_bind fun condition => ?_
  refine only_gives_bind fun colon => only_gives_bind fun body => ?_
  exact only_gives_bind fun span => only_gives_pure (makes span condition body)

theorem definition_no_assignment :
    OnlyGives (definition limit (fuel + 1) depth) fun tree => tree.isAssignment = false := by
  rw [definition]
  refine only_gives_bind fun start => only_gives_bind fun token => ?_
  cases token.name? with
  | none => exact only_gives_unexpected
  | some name =>
      refine only_gives_bind fun names => only_gives_bind fun colon => ?_
      exact only_gives_bind fun body => only_gives_bind fun span => only_gives_pure rfl

end Kinds

/-- A target is spelled up to an assignment sign. -/
def AimsUpTo (feed : Feed) (target : Pattern) (behind : Feed) : Prop :=
  ∃ between sign, ReadsAim feed (.one target) between ∧ Takes between sign behind ∧
    sign.kind = .assign

/-- Behind an assignment sign a value is read, and the statement ends. -/
def Concludes (limit fuel depth : Nat) (feed : Feed) (value : Expression) (after : Feed) : Prop :=
  ∃ last, (expression limit fuel depth).run feed = .ok (value, last) ∧
    statementEnd.run last = .ok ((), after)

section Reading

variable {limit fuel depth : Nat} {feed after : Feed}

theorem Leads.known {α : Type} {reader : Parse α} {post : α → Feed → Prop}
    (leads : Leads feed reader post) :
    Leads feed reader fun value after => reader.run feed = .ok (value, after) ∧ post value after :=
  fun value after run => ⟨(leads value after run).1, run, (leads value after run).2⟩

/-- A declaration is made of its word, a target, a sign and a value. -/
theorem declaration_aims (proper : feed.Proper) {start : Token}
    (isCurrent : feed.current = .ok start) (isLet : start.kind = .letWord) :
    Leads feed (declaration limit (fuel + 1) depth) fun tree after =>
      ∀ span target value, tree = .declare span target value → ∃ front behind,
        Takes feed start front ∧ AimsUpTo front target behind ∧
        Concludes limit fuel depth behind value after := by
  rw [declaration]
  apply leads_bind (leads_advance proper isCurrent (ne_end_of_eq isLet (by decide)))
  intro _ front proper outcome
  rcases outcome with ⟨rfl, takes⟩
  apply leads_bind ((targets_spelled limit fuel).pattern depth proper)
  intro target between proper reads
  apply leads_bind (leads_consume proper (by decide))
  intro sign behind proper outcome
  rcases outcome with ⟨takesSign, isSign⟩
  apply leads_bind ((readers_sound limit fuel).expression depth proper).known
  intro value last proper outcome
  rcases outcome with ⟨runValue, _⟩
  apply leads_bind (leads_span_from proper _)
  intro span last proper outcome
  rcases outcome with ⟨rfl, rfl⟩
  apply leads_bind (leads_statement_end proper).known
  intro _ after proper outcome
  rcases outcome with ⟨runEnd, _⟩
  refine leads_pure proper fun span target value same => ?_
  cases same
  exact ⟨front, behind, takes, ⟨between, sign, reads, takesSign, isSign⟩, last, runValue, runEnd⟩

/-- An assignment is made of an expression that is taken for a target, a sign and a value. -/
theorem simple_statement_aims (proper : feed.Proper) (start : Token) :
    Leads feed (simpleStatement limit (fuel + 1) depth start) fun tree after =>
      ∀ span target value, tree = .assign span target value → ∃ behind,
        AimsUpTo feed target behind ∧ Concludes limit fuel depth behind value after := by
  rw [simpleStatement]
  apply leads_bind ((readers_bracket limit fuel).expression depth proper)
  intro subject between proper brackets
  apply leads_bind (leads_accept_open proper (by decide))
  intro assigned behind proper outcome
  rcases outcome with ⟨rfl, rfl⟩ | ⟨sign, rfl, takesSign, isSign⟩
  · apply leads_bind (leads_accept_open proper (by decide))
    intro closed last proper _
    have evaluated (tree : Statement) (other : tree.isAssignment = false) :
        Leads last (statementEnd >>= fun _ => pure tree) fun tree after =>
          ∀ span target value, tree = .assign span target value → ∃ behind,
            AimsUpTo feed target behind ∧ Concludes limit fuel depth behind value after := by
      refine leads_mono (leads_ended proper tree) ?_
      intro result after outcome span target value same
      rw [← outcome.1, same] at other
      cases other
    cases closed with
    | none => exact leads_pure_bind (evaluated _ rfl)
    | some mark =>
        apply leads_bind (leads_span_from proper start)
        intro span last' proper outcome
        rcases outcome with ⟨rfl, rfl⟩
        exact evaluated _ rfl
  · apply leads_bind (leads_of_except proper _)
    intro pattern behind proper outcome
    rcases outcome with ⟨rfl, taken⟩
    apply leads_bind ((readers_sound limit fuel).expression depth proper).known
    intro value last proper outcome
    rcases outcome with ⟨runValue, _⟩
    apply leads_bind (leads_statement_end proper).known
    intro _ after proper outcome
    rcases outcome with ⟨runEnd, _⟩
    refine leads_pure proper fun span target value same => ?_
    cases same
    exact ⟨behind, ⟨between, sign, brackets.reads_aim taken, takesSign, isSign⟩, last, runValue,
      runEnd⟩

/-- What a statement that is an assignment is made of. -/
theorem statement_aims (proper : feed.Proper) {start : Token}
    (isCurrent : feed.current = .ok start) (other : start.kind ≠ .newline) {span : Span}
    {target : Pattern} {value : Expression}
    (run : (statement limit (fuel + 2) depth).run feed =
      .ok (.assign span target value, after)) :
    ∃ behind, AimsUpTo feed target behind ∧ Concludes limit fuel depth behind value after := by
  rw [statement, run_bind_ok (run_skip_newlines isCurrent other),
    run_bind_ok (run_current isCurrent)] at run
  have simple (read : (simpleStatement limit (fuel + 1) depth start).run feed =
      .ok (.assign span target value, after)) :=
    (simple_statement_aims proper start _ _ read).2 span target value rfl
  cases isKind : start.kind with
  | letWord =>
      simp only [isKind] at run
      cases declaration_no_assignment limit fuel depth _ _ _ run
  | whileWord =>
      simp only [isKind] at run
      cases conditioned_no_assignment limit fuel depth (fun _ _ _ => rfl) _ _ _ run
  | ifWord =>
      simp only [isKind] at run
      cases conditioned_no_assignment limit fuel depth (fun _ _ _ => rfl) _ _ _ run
  | fnWord =>
      simp only [isKind] at run
      obtain ⟨following, behind, looks, run⟩ := run_bind_inv run
      obtain ⟨rfl, _⟩ := (leads_second proper _ _ looks).2
      split at run
      · cases definition_no_assignment limit fuel depth _ _ _ run
      · exact simple run
  | _ =>
      simp only [isKind] at run
      exact simple run

end Reading

/-- The classes of the tokens that spell targets. -/
theorem SpellsTarget.kinds {tokens : List Token} {aim : Aim} (spells : SpellsTarget tokens aim) :
    ∀ token ∈ tokens,
      token.kind ∈ [TokenClass.identifier, .openParen, .closeParen, .comma] := by
  induction spells with
  | name named => simp [Token.name_some named]
  | empty isOpen isClose => simp [isOpen, isClose]
  | grouped isOpen _ isClose inner =>
      simp only [List.forall_mem_cons, List.forall_mem_append]
      exact ⟨by simp [isOpen], inner, by simp [isClose]⟩
  | tuple isOpen _ _ _ isClose inner others =>
      simp only [List.forall_mem_cons, List.forall_mem_append]
      exact ⟨by simp [isOpen], inner, others, by simp [isClose]⟩
  | noMore => simp
  | lastComma isComma => simp [isComma]
  | oneMore isComma _ _ inner others =>
      simp only [List.forall_mem_cons, List.forall_mem_append]
      exact ⟨by simp [isComma], inner, others⟩

theorem SpellsTarget.lacks {tokens : List Token} {aim : Aim} (spells : SpellsTarget tokens aim)
    {kind : TokenClass} (other : kind ∉ [TokenClass.identifier, .openParen, .closeParen, .comma]) :
    ∀ token ∈ tokens, token.kind ≠ kind :=
  fun token member same => other (same ▸ spells.kinds token member)

/-- The first assignment sign parts a list of tokens in one way. -/
theorem split_at_sign {tokens others rest further : List Token} {sign sign' : Token}
    (isSign : sign.kind = .assign) (isSign' : sign'.kind = .assign)
    (lacks : ∀ token ∈ tokens, token.kind ≠ .assign)
    (lacks' : ∀ token ∈ others, token.kind ≠ .assign)
    (same : tokens ++ sign :: rest = others ++ sign' :: further) :
    tokens = others ∧ sign = sign' ∧ rest = further := by
  induction tokens generalizing others with
  | nil =>
      cases others with
      | nil => exact ⟨rfl, List.cons_eq_cons.1 same⟩
      | cons token others =>
          rw [(List.cons_eq_cons.1 same).1] at isSign
          exact absurd isSign (lacks' token (by simp))
  | cons token tokens induction =>
      cases others with
      | nil =>
          rw [← (List.cons_eq_cons.1 same).1] at isSign'
          exact absurd isSign' (lacks token (by simp))
      | cons token' others =>
          obtain ⟨rfl, sameRest⟩ := List.cons_eq_cons.1 same
          rw [List.forall_mem_cons] at lacks lacks'
          obtain ⟨rfl, further⟩ := induction lacks.2 lacks'.2 sameRest
          exact ⟨rfl, further⟩

section Agreement

variable {limit fuel depth : Nat} {previous : Option Token} {tokens rest : List Token}
  {sign : Token} {ending : Except ScriptError Token} {target : Pattern} {value : Expression}
  {after : Feed}

/-- Tokens up to the first assignment sign spell the target in front of it. -/
theorem AimsUpTo.spells {behind : Feed} (isSign : sign.kind = .assign)
    (lacks : ∀ token ∈ tokens, token.kind ≠ .assign)
    (aims : AimsUpTo ⟨previous, tokens ++ sign :: rest, ending⟩ target behind) :
    SpellsTarget tokens (.one target) ∧ behind = ⟨some sign, rest, ending⟩ := by
  obtain ⟨between, found, ⟨spelled, spells, takes⟩, takesSign, isFound⟩ := aims
  obtain ⟨isRest, sameEnding⟩ := takes.feed_eq
  cases takesSign with
  | front =>
      obtain ⟨rfl, rfl, rfl⟩ :=
        split_at_sign isSign isFound lacks (spells.lacks (by decide)) isRest
      cases sameEnding
      exact ⟨spells, rfl⟩

/-- No indented body ends with a target. -/
theorem SpellsTarget.not_closed (spells : SpellsTarget tokens (.one target)) :
    Feed.blockClosed ⟨tokens.getLast?.or previous, rest, ending⟩ = false := by
  cases isLast : tokens.getLast? with
  | none =>
      rw [List.getLast?_eq_none_iff] at isLast
      subst isLast
      cases spells
  | some token =>
      have other : token.kind ≠ .dedent :=
        spells.lacks (by decide) token (List.mem_of_getLast? isLast)
      simp [Feed.blockClosed, other]

theorem run_accept_open_takes {feed behind : Feed} {kind : TokenClass} {token : Token}
    (unclosed : feed.blockClosed = false) (takes : Takes feed token behind)
    (isKind : token.kind = kind) : (acceptOpen kind).run feed = .ok (some token, behind) := by
  unfold acceptOpen
  rw [run_bind_ok run_block_closed, unclosed]
  exact takes.run_accept isKind

/-- A target behind its word is declared. -/
theorem SpellsTarget.declared {start : Token} (spells : SpellsTarget tokens (.one target))
    (isLet : start.kind = .letWord) (isSign : sign.kind = .assign)
    (concludes : Concludes limit fuel depth ⟨some sign, rest, ending⟩ value after) :
    Obtains ⟨previous, start :: (tokens ++ sign :: rest), ending⟩ (statement limit (fuel + 2) depth)
      (fun tree => ∃ span, tree = .declare span target value) after := by
  obtain ⟨last, runValue, runEnd⟩ := concludes
  have opens : Takes ⟨previous, start :: (tokens ++ sign :: rest), ending⟩ start
      ⟨some start, tokens ++ sign :: rest, ending⟩ := .front (ne_end_of_eq isLet (by decide))
  have takes := TakesAll.front tokens (sign :: rest) (some start) ending (spells.lacks (by decide))
  have takesSign : Takes ⟨tokens.getLast?.or (some start), sign :: rest, ending⟩ sign
      ⟨some sign, rest, ending⟩ := .front (ne_end_of_eq isSign (by decide))
  rw [statement]
  refine obtains_after (run_skip_newlines rfl (by simp [isLet])) ?_
  refine obtains_after (run_current rfl) ?_
  simp only [isLet]
  rw [declaration]
  refine obtains_after opens.run_advance ?_
  refine obtains_bind (spells.obtained limit fuel depth takes) fun found same => ?_
  refine obtains_after (takesSign.run_consume isSign) ?_
  refine obtains_after runValue ?_
  refine obtains_after (run_span_from start) ?_
  refine obtains_after runEnd ?_
  rw [same]
  exact obtains_pure ⟨_, rfl⟩

/-- A target in front of an assignment sign is assigned to. -/
theorem SpellsTarget.assigned (spells : SpellsTarget tokens (.one target))
    (isSign : sign.kind = .assign)
    (concludes : Concludes limit fuel depth ⟨some sign, rest, ending⟩ value after) :
    Obtains ⟨previous, tokens ++ sign :: rest, ending⟩ (statement limit (fuel + 2) depth)
      (fun tree => ∃ span, tree = .assign span target value) after := by
  obtain ⟨last, runValue, runEnd⟩ := concludes
  have takes := TakesAll.front tokens (sign :: rest) previous ending (spells.lacks (by decide))
  have takesSign : Takes ⟨tokens.getLast?.or previous, sign :: rest, ending⟩ sign
      ⟨some sign, rest, ending⟩ := .front (ne_end_of_eq isSign (by decide))
  have stops : Feed.Stops 0 ⟨tokens.getLast?.or previous, sign :: rest, ending⟩ :=
    Feed.stops_of_untied rfl (by rw [isSign]; rfl)
  have unclosed : Feed.blockClosed ⟨tokens.getLast?.or previous, sign :: rest, ending⟩ = false :=
    spells.not_closed
  obtain ⟨start, isCurrent, isFirst⟩ := spells.first takes
  have simple : Obtains ⟨previous, tokens ++ sign :: rest, ending⟩
      (simpleStatement limit (fuel + 1) depth start)
      (fun tree => ∃ span, tree = .assign span target value) after := by
    rw [simpleStatement]
    refine obtains_bind (spells.taken limit fuel depth takes stops) fun subject taken => ?_
    refine obtains_after (run_accept_open_takes unclosed takesSign isSign) ?_
    simp only [Option.isSome_some, if_true, taken]
    refine obtains_after run_of_except ?_
    refine obtains_after runValue ?_
    refine obtains_after runEnd ?_
    exact obtains_pure ⟨_, rfl⟩
  have other : start.kind ≠ .newline := by
    rcases isFirst with isName | isOpen
    · simp [isName]
    · simp [isOpen]
  rw [statement]
  refine obtains_after (run_skip_newlines isCurrent other) ?_
  refine obtains_after (run_current isCurrent) ?_
  rcases isFirst with isName | isOpen
  · simp only [isName]
    exact simple
  · simp only [isOpen]
    exact simple

/-- Reading failed because levels of nesting ran out. -/
def RefusedForNesting {α : Type} (outcome : Except Halt α) : Prop :=
  ∃ error, outcome = .error (.error error) ∧ error.cause.code = "E106"

/-- What a reader obtains it gives, if levels of nesting and fuel suffice. -/
theorem Obtains.gives {α : Type} {feed : Feed} {reader : Parse α} {meets : α → Prop}
    (obtains : Obtains feed reader meets after) (supplied : reader.run feed ≠ .error .outOfFuel)
    (granted : ¬ RefusedForNesting (reader.run feed)) :
    ∃ value, reader.run feed = .ok (value, after) ∧ meets value := by
  rcases obtains with found | ⟨halt, run, short⟩
  · exact found
  · cases halt with
    | outOfFuel => exact absurd run supplied
    | error error => exact absurd ⟨error, run, by simpa [Halt.isShort] using short⟩ granted

/-- The tokens up to the first assignment sign are declared if they spell a target. -/
theorem declares_iff {start : Token} {feed : Feed} (proper : feed.Proper)
    (isLet : start.kind = .letWord) (isSign : sign.kind = .assign)
    (lacks : ∀ token ∈ tokens, token.kind ≠ .assign)
    (ahead : feed = ⟨previous, start :: (tokens ++ sign :: rest), ending⟩)
    (supplied : (statement limit (fuel + 2) depth).run feed ≠ .error .outOfFuel)
    (granted : ¬ RefusedForNesting ((statement limit (fuel + 2) depth).run feed)) :
    (∃ span, (statement limit (fuel + 2) depth).run feed =
        .ok (.declare span target value, after)) ↔
      SpellsTarget tokens (.one target) ∧
        Concludes limit fuel depth ⟨some sign, rest, ending⟩ value after := by
  have isCurrent : feed.current = .ok start := by
    rw [ahead]
    rfl
  constructor
  · rintro ⟨span, run⟩
    rw [statement, run_bind_ok (run_skip_newlines isCurrent (by simp [isLet])),
      run_bind_ok (run_current isCurrent)] at run
    simp only [isLet] at run
    obtain ⟨front, behind, takes, aims, concludes⟩ :=
      (declaration_aims proper isCurrent isLet _ _ run).2 span target value rfl
    subst ahead
    cases takes
    obtain ⟨spells, rfl⟩ := aims.spells isSign lacks
    exact ⟨spells, concludes⟩
  · rintro ⟨spells, concludes⟩
    subst ahead
    obtain ⟨_, run, span, rfl⟩ := (spells.declared isLet isSign concludes).gives supplied granted
    exact ⟨span, run⟩

/-- The tokens up to the first assignment sign are assigned to if they spell a target. -/
theorem assigns_iff {feed : Feed} (proper : feed.Proper) (isSign : sign.kind = .assign)
    (plain : ∀ token ∈ tokens, token.kind ≠ .assign ∧ token.kind ≠ .newline)
    (ahead : feed = ⟨previous, tokens ++ sign :: rest, ending⟩)
    (supplied : (statement limit (fuel + 2) depth).run feed ≠ .error .outOfFuel)
    (granted : ¬ RefusedForNesting ((statement limit (fuel + 2) depth).run feed)) :
    (∃ span, (statement limit (fuel + 2) depth).run feed =
        .ok (.assign span target value, after)) ↔
      SpellsTarget tokens (.one target) ∧
        Concludes limit fuel depth ⟨some sign, rest, ending⟩ value after := by
  have first : ∃ start, feed.current = .ok start ∧ start.kind ≠ .newline := by
    rw [ahead]
    cases tokens with
    | nil => exact ⟨sign, rfl, by simp [isSign]⟩
    | cons token tokens => exact ⟨token, rfl, (plain token (by simp)).2⟩
  constructor
  · rintro ⟨span, run⟩
    obtain ⟨start, isCurrent, other⟩ := first
    obtain ⟨behind, aims, concludes⟩ := statement_aims proper isCurrent other run
    subst ahead
    obtain ⟨spells, rfl⟩ := aims.spells isSign fun token member => (plain token member).1
    exact ⟨spells, concludes⟩
  · rintro ⟨spells, concludes⟩
    subst ahead
    obtain ⟨_, run, span, rfl⟩ := (spells.assigned isSign concludes).gives supplied granted
    exact ⟨span, run⟩

end Agreement

/-- A target that is declared, behind its word, is the one that is assigned to without the word,
unless levels of nesting run out. Where the word puts the tokens elsewhere, the ranges in the
target are there as well. The fuel is what a program of these tokens leaves for its first
statement. -/
theorem declares_iff_assigns (limit fuel depth : Nat) (previous : Option Token)
    (start sign : Token) (tokens rest : List Token) (ending : Except ScriptError Token)
    (move : Position → Position) (isLet : start.kind = .letWord) (isSign : sign.kind = .assign)
    (plain : ∀ token ∈ tokens, token.kind ≠ .assign ∧ token.kind.isLayout = false)
    (proper : ∀ final, ending = .ok final → final.kind = .endOfInput)
    (enough : fuelFor (tokens.length + rest.length + 2) ≤ fuel + 1)
    {declared assigned : Except Halt (Statement × Feed)}
    (declares : declared = (statement limit fuel depth).run
      ⟨previous, start :: (tokens.map (Token.moved move) ++ sign :: rest), ending⟩)
    (assigns : assigned = (statement limit fuel depth).run
      ⟨previous, tokens ++ sign :: rest, ending⟩)
    (grantsDeclared : ¬ RefusedForNesting declared)
    (grantsAssigned : ¬ RefusedForNesting assigned)
    (target : Pattern) (value : Expression) (after : Feed) :
    (∃ span, declared = .ok (.declare span target value, after)) ↔
      ∃ found : Pattern, target = found.moved move ∧
        ∃ span, assigned = .ok (.assign span found value, after) := by
  rw [fuelFor] at enough
  obtain ⟨less, rfl⟩ : ∃ less, fuel = less + 2 := ⟨fuel - 2, by omega⟩
  have lacksMoved : ∀ token ∈ tokens.map (Token.moved move), token.kind ≠ .assign := by
    rw [List.forall_mem_map]
    exact fun token member => (plain token member).1
  have plainLines : ∀ token ∈ tokens, token.kind ≠ .assign ∧ token.kind ≠ .newline := by
    refine fun token member => ⟨(plain token member).1, fun isNewline => ?_⟩
    have inLine := (plain token member).2
    rw [isNewline] at inLine
    cases inLine
  have properDeclared : Feed.Proper
      ⟨previous, start :: (tokens.map (Token.moved move) ++ sign :: rest), ending⟩ := proper
  have properAssigned : Feed.Proper ⟨previous, tokens ++ sign :: rest, ending⟩ := proper
  have supplied (ahead : List Token) (short : ahead.length ≤ tokens.length + rest.length + 2) :
      (statement limit (less + 2) depth).run ⟨previous, ahead, ending⟩ ≠ .error .outOfFuel := by
    have properAhead : Feed.Proper ⟨previous, ahead, ending⟩ := proper
    exact statement_never_short properAhead (by dsimp only; omega)
  have suppliedDeclared := supplied (start :: (tokens.map (Token.moved move) ++ sign :: rest))
    (by simp; omega)
  have suppliedAssigned := supplied (tokens ++ sign :: rest) (by simp; omega)
  subst declares assigns
  rw [declares_iff properDeclared isLet isSign lacksMoved rfl suppliedDeclared grantsDeclared]
  constructor
  · rintro ⟨spells, concludes⟩
    obtain ⟨aim, isAim, spellsHere⟩ := spells.of_moved rfl
    obtain ⟨found, rfl, rfl⟩ := Aim.one_of_moved isAim
    refine ⟨found, rfl, ?_⟩
    exact (assigns_iff properAssigned isSign plainLines rfl suppliedAssigned grantsAssigned).2
      ⟨spellsHere, concludes⟩
  · rintro ⟨found, rfl, assigned⟩
    obtain ⟨spells, concludes⟩ :=
      (assigns_iff properAssigned isSign plainLines rfl suppliedAssigned grantsAssigned).1 assigned
    exact ⟨spells.moved, concludes⟩

/-- The target `((a),(b,),)`: a name in a group, a tuple of one element, and a last comma. -/
theorem nested_target_declared :
    let place (column : Nat) : Span := ⟨none, ⟨1, column, column - 1⟩, ⟨1, column + 1, column⟩⟩
    let mark (kind : TokenClass) (column : Nat) : Token := ⟨kind, .nothing, "", place column⟩
    let name (text : String) (column : Nat) : Token :=
      ⟨.identifier, .text text, text, place column⟩
    let tokens := [mark .openParen 1, mark .openParen 2, name "a" 3, mark .closeParen 4,
      mark .comma 5, mark .openParen 6, name "b" 7, mark .comma 8, mark .closeParen 9,
      mark .comma 10, mark .closeParen 11]
    let move (position : Position) : Position :=
      ⟨position.line, position.column + 4, position.offset + 4⟩
    let found : Pattern := .tuple ((place 1).join (place 11)) [.identifier (place 3) "a",
      .tuple ((place 6).join (place 9)) [.identifier (place 7) "b"]]
    let value : Expression := .identifier (place 13) "c"
    let final := mark .endOfInput 14
    (∀ token ∈ tokens, token.kind ≠ .assign ∧ token.kind.isLayout = false) ∧
      ∃ span, (statement 8 400 0).run ⟨none, mark .letWord 1 ::
          (tokens.map (Token.moved move) ++ mark .assign 12 :: [name "c" 13]), .ok final⟩ =
        .ok (.declare span (found.moved move) value, ⟨some (name "c" 13), [], .ok final⟩) := by
  intro place mark name tokens move found value final
  have plain : ∀ token ∈ tokens, token.kind ≠ .assign ∧ token.kind.isLayout = false := by decide
  have assigned : (statement 8 400 0).run
      ⟨none, tokens ++ mark .assign 12 :: [name "c" 13], .ok final⟩ =
        .ok (.assign ((place 1).join (place 13)) found value,
          ⟨some (name "c" 13), [], .ok final⟩) := by with_unfolding_all rfl
  have declares : ((statement 8 400 0).run ⟨none, mark .letWord 1 ::
      (tokens.map (Token.moved move) ++ mark .assign 12 :: [name "c" 13]), .ok final⟩).isOk =
        true := by with_unfolding_all rfl
  have granted {outcome : Except Halt (Statement × Feed)} (gives : outcome.isOk = true) :
      ¬ RefusedForNesting outcome := by
    rintro ⟨error, rfl, _⟩
    cases gives
  have proper : ∀ last, (.ok final : Except ScriptError Token) = .ok last →
      last.kind = .endOfInput := by
    rintro last ⟨⟩
    rfl
  refine ⟨plain, ?_⟩
  exact (declares_iff_assigns 8 400 0 none (mark .letWord 1) (mark .assign 12) tokens [name "c" 13]
    (.ok final) move rfl rfl plain proper (by decide) rfl assigned.symm (granted declares)
    (granted rfl) (found.moved move) value _).2 ⟨found, rfl, _, rfl⟩

end LayoutScript
