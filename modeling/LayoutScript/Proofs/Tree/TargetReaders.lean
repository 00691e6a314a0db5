import LayoutScript.Proofs.Tree.Brackets
import LayoutScript.Proofs.Tree.Settling

/-!
Two readers of targets. Behind `let` a target is read as such; in front of an assignment it is read
as an expression and then taken for a target. Both readers take the same tokens for the same
target: what one of them reads spells a target, and what spells a target each of them reads, as far
as levels of nesting and fuel go.
-/

namespace LayoutScript

open Parse

/-- Tokens are taken one after the other. -/
inductive TakesAll : Feed → List Token → Feed → Prop where
  | none {feed : Feed} : TakesAll feed [] feed
  | more {feed behind after : Feed} {token : Token} {tokens : List Token}
      (takes : Takes feed token behind) (others : TakesAll behind tokens after) :
      TakesAll feed (token :: tokens) after

namespace TakesAll

variable {feed middle after : Feed} {tokens others : List Token}

theorem one {token : Token} (takes : Takes feed token after) : TakesAll feed [token] after :=
  .more takes .none

theorem trans (first : TakesAll feed tokens middle) (second : TakesAll middle others after) :
    TakesAll feed (tokens ++ others) after := by
  induction first with
  | none => exact second
  | more takes _ induction => exact .more takes (induction second)

theorem split (all : TakesAll feed (tokens ++ others) after) :
    ∃ middle, TakesAll feed tokens middle ∧ TakesAll middle others after := by
  induction tokens generalizing feed with
  | nil => exact ⟨feed, .none, all⟩
  | cons token tokens induction =>
      cases all with
      | more takes rest =>
          obtain ⟨middle, first, second⟩ := induction rest
          exact ⟨middle, .more takes first, second⟩

theorem last {token : Token} (all : TakesAll feed [token] after) : Takes feed token after := by
  cases all with
  | more takes rest =>
      cases rest
      exact takes

theorem feed_eq (all : TakesAll feed tokens after) :
    feed.rest = tokens ++ after.rest ∧ after.ending = feed.ending := by
  induction all with
  | none => exact ⟨rfl, rfl⟩
  | more takes _ induction =>
      cases takes
      exact ⟨congrArg _ induction.1, induction.2⟩

/-- Any tokens in front can be taken, up to the end of input. -/
theorem front (tokens rest : List Token) (previous : Option Token)
    (ending : Except ScriptError Token) (proper : ∀ token ∈ tokens, token.kind ≠ .endOfInput) :
    TakesAll ⟨previous, tokens ++ rest, ending⟩ tokens
      ⟨tokens.getLast?.or previous, rest, ending⟩ := by
  induction tokens generalizing previous with
  | nil => exact .none
  | cons token tokens induction =>
      rw [List.forall_mem_cons] at proper
      have others := induction (some token) proper.2
      refine .more (.front proper.1) ?_
      cases tokens with
      | nil => exact others
      | cons next tokens =>
          rw [List.getLast?_cons_cons]
          exact others

end TakesAll

/-- A target, or the rest of the targets in parentheses. -/
inductive Aim where
  | one (target : Pattern)
  | more (targets : List Pattern)

/-- Tokens spell a target. A single target in parentheses is no tuple unless a comma follows it. -/
inductive SpellsTarget : List Token → Aim → Prop where
  | name {token : Token} {name : String} (named : token.name? = some name) :
      SpellsTarget [token] (.one (.identifier token.span name))
  | empty {start stop : Token} (isOpen : start.kind = .openParen)
      (isClose : stop.kind = .closeParen) :
      SpellsTarget [start, stop] (.one (.tuple (start.span.join stop.span) []))
  | grouped {start stop : Token} {tokens : List Token} {target : Pattern}
      (isOpen : start.kind = .openParen) (inner : SpellsTarget tokens (.one target))
      (isClose : stop.kind = .closeParen) :
      SpellsTarget (start :: (tokens ++ [stop])) (.one target)
  | tuple {start stop : Token} {tokens moreTokens : List Token} {target : Pattern}
      {targets : List Pattern} (isOpen : start.kind = .openParen)
      (inner : SpellsTarget tokens (.one target)) (separated : moreTokens ≠ [])
      (others : SpellsTarget moreTokens (.more targets)) (isClose : stop.kind = .closeParen) :
      SpellsTarget (start :: (tokens ++ (moreTokens ++ [stop])))
        (.one (.tuple (start.span.join stop.span) (target :: targets)))
  | noMore : SpellsTarget [] (.more [])
  | lastComma {comma : Token} (isComma : comma.kind = .comma) : SpellsTarget [comma] (.more [])
  | oneMore {comma : Token} {tokens moreTokens : List Token} {target : Pattern}
      {targets : List Pattern} (isComma : comma.kind = .comma)
      (inner : SpellsTarget tokens (.one target))
      (others : SpellsTarget moreTokens (.more targets)) :
      SpellsTarget (comma :: (tokens ++ moreTokens)) (.more (target :: targets))

section Moving

/-- A range with its ends put elsewhere. -/
def Span.moved (move : Position → Position) (span : Span) : Span :=
  ⟨span.file, move span.start, move span.stop⟩

def Token.moved (move : Position → Position) (token : Token) : Token :=
  { token with span := token.span.moved move }

mutual

def Pattern.moved (move : Position → Position) : Pattern → Pattern
  | .identifier span name => .identifier (span.moved move) name
  | .tuple span elements => .tuple (span.moved move) (Pattern.movedAll move elements)

def Pattern.movedAll (move : Position → Position) : List Pattern → List Pattern
  | [] => []
  | pattern :: patterns => pattern.moved move :: Pattern.movedAll move patterns

end

def Aim.moved (move : Position → Position) : Aim → Aim
  | .one target => .one (target.moved move)
  | .more targets => .more (Pattern.movedAll move targets)

variable {move : Position → Position}

/-- Tokens that are put elsewhere spell the target there. -/
theorem SpellsTarget.moved {tokens : List Token} {aim : Aim} (spells : SpellsTarget tokens aim) :
    SpellsTarget (tokens.map (Token.moved move)) (aim.moved move) := by
  induction spells with
  | @name token name named =>
      have there : (token.moved move).name? = some name := named
      exact .name there
  | empty isOpen isClose => exact .empty isOpen isClose
  | grouped isOpen _ isClose inner =>
      rw [List.map_cons, List.map_append]
      exact .grouped isOpen inner isClose
  | tuple isOpen _ separated _ isClose inner others =>
      rw [List.map_cons, List.map_append, List.map_append]
      exact .tuple isOpen inner (by simpa using separated) others isClose
  | noMore => exact .noMore
  | lastComma isComma => exact .lastComma isComma
  | oneMore isComma _ _ inner others =>
      rw [List.map_cons, List.map_append]
      exact .oneMore isComma inner others

theorem Aim.one_of_moved {target : Pattern} {found : Aim} (same : .one target = found.moved move) :
    ∃ inner : Pattern, found = .one inner ∧ target = inner.moved move := by
  cases found with
  | one inner =>
      cases same
      exact ⟨inner, rfl, rfl⟩
  | more => cases same

theorem Aim.more_of_moved {targets : List Pattern} {found : Aim}
    (same : .more targets = found.moved move) :
    ∃ inner : List Pattern, found = .more inner ∧ targets = Pattern.movedAll move inner := by
  cases found with
  | one => cases same
  | more inner =>
      cases same
      exact ⟨inner, rfl, rfl⟩

/-- What tokens spell elsewhere they spell where they are. -/
theorem SpellsTarget.of_moved {tokens spelled : List Token} {aim : Aim}
    (spells : SpellsTarget spelled aim) (same : tokens.map (Token.moved move) = spelled) :
    ∃ found : Aim, aim = found.moved move ∧ SpellsTarget tokens found := by
  induction spells generalizing tokens with
  | @name _ name named =>
      obtain ⟨token, rfl, rfl⟩ := List.map_eq_singleton_iff.1 same
      have here : token.name? = some name := named
      exact ⟨.one (.identifier token.span name), rfl, .name here⟩
  | empty isOpen isClose =>
      obtain ⟨start, others, rfl, rfl, rest⟩ := List.map_eq_cons_iff.1 same
      obtain ⟨stop, rfl, rfl⟩ := List.map_eq_singleton_iff.1 rest
      exact ⟨.one (.tuple (start.span.join stop.span) []), rfl, .empty isOpen isClose⟩
  | grouped isOpen _ isClose readInner =>
      obtain ⟨start, others, rfl, rfl, rest⟩ := List.map_eq_cons_iff.1 same
      obtain ⟨inside, back, rfl, isInside, isBack⟩ := List.map_eq_append_iff.1 rest
      obtain ⟨stop, rfl, rfl⟩ := List.map_eq_singleton_iff.1 isBack
      obtain ⟨found, isFound, inner⟩ := readInner isInside
      obtain ⟨target, rfl, rfl⟩ := Aim.one_of_moved isFound
      exact ⟨.one target, rfl, .grouped isOpen inner isClose⟩
  | tuple isOpen _ separated _ isClose readInner readOthers =>
      obtain ⟨start, others, rfl, rfl, rest⟩ := List.map_eq_cons_iff.1 same
      obtain ⟨inside, back, rfl, isInside, isBack⟩ := List.map_eq_append_iff.1 rest
      obtain ⟨between, last, rfl, isBetween, isLast⟩ := List.map_eq_append_iff.1 isBack
      obtain ⟨stop, rfl, rfl⟩ := List.map_eq_singleton_iff.1 isLast
      obtain ⟨found, isFound, inner⟩ := readInner isInside
      obtain ⟨target, rfl, rfl⟩ := Aim.one_of_moved isFound
      obtain ⟨more, isMore, further⟩ := readOthers isBetween
      obtain ⟨targets, rfl, rfl⟩ := Aim.more_of_moved isMore
      have present : between ≠ [] := by
        rintro rfl
        exact separated isBetween.symm
      exact ⟨.one (.tuple (start.span.join stop.span) (target :: targets)), rfl,
        .tuple isOpen inner present further isClose⟩
  | noMore =>
      cases List.map_eq_nil_iff.1 same
      exact ⟨.more [], rfl, .noMore⟩
  | lastComma isComma =>
      obtain ⟨comma, rfl, rfl⟩ := List.map_eq_singleton_iff.1 same
      exact ⟨.more [], rfl, .lastComma isComma⟩
  | oneMore isComma _ _ readInner readOthers =>
      obtain ⟨comma, others, rfl, rfl, rest⟩ := List.map_eq_cons_iff.1 same
      obtain ⟨inside, back, rfl, isInside, isBack⟩ := List.map_eq_append_iff.1 rest
      obtain ⟨found, isFound, inner⟩ := readInner isInside
      obtain ⟨target, rfl, rfl⟩ := Aim.one_of_moved isFound
      obtain ⟨more, isMore, further⟩ := readOthers isBack
      obtain ⟨targets, rfl, rfl⟩ := Aim.more_of_moved isMore
      exact ⟨.more (target :: targets), rfl, .oneMore isComma inner further⟩

end Moving

section Spelling

variable {feed after : Feed}

/-- A target, the tokens that spell it and the feed behind them. -/
def ReadsAim (feed : Feed) (aim : Aim) (after : Feed) : Prop :=
  ∃ tokens, SpellsTarget tokens aim ∧ TakesAll feed tokens after

/-- Behind the first target of a tuple comes a comma. -/
theorem TakesAll.separated {between : Feed} {tokens : List Token} {stop : Token}
    (goesOn : ∀ token, feed.current = .ok token → token.kind ≠ .closeParen)
    (takes : TakesAll feed tokens between) (closes : Takes between stop after)
    (isClose : stop.kind = .closeParen) : tokens ≠ [] := by
  rintro rfl
  cases takes
  exact goesOn stop closes.current isClose

/-- The readers of targets at one amount of fuel. -/
structure TargetsSpelled (limit fuel : Nat) : Prop where
  pattern (depth : Nat) {feed : Feed} (proper : feed.Proper) :
    Leads feed (pattern limit fuel depth) fun target after => ReadsAim feed (.one target) after
  tuplePattern (depth : Nat) {origin feed : Feed} {start : Token} (proper : feed.Proper)
    (opens : Takes origin start feed) (isOpen : start.kind = .openParen) :
    Leads feed (tuplePattern limit fuel depth start) fun target after =>
      ReadsAim origin (.one target) after
  morePatterns (depth : Nat) {feed : Feed} (proper : feed.Proper) :
    Leads feed (morePatterns limit fuel depth) fun targets after =>
      ReadsAim feed (.more targets) after

namespace TargetsSpelled

variable {limit fuel : Nat}

theorem pattern_step (smaller : TargetsSpelled limit fuel) (depth : Nat) (proper : feed.Proper) :
    Leads feed (Parse.pattern limit (fuel + 1) depth) fun target after =>
      ReadsAim feed (.one target) after := by
  rw [Parse.pattern]
  apply leads_bind (leads_current proper)
  intro token _ proper outcome
  rcases outcome with ⟨rfl, isCurrent⟩
  cases named : token.name? with
  | some name =>
      apply leads_bind (leads_advance proper isCurrent (name_not_end named))
      intro _ after proper outcome
      exact leads_pure proper ⟨_, .name named, .one outcome.2⟩
  | none =>
      apply leads_ite
      · intro isOpen
        apply leads_bind (leads_advance proper isCurrent (ne_end_of_eq isOpen (by decide)))
        intro _ inside proper outcome
        rcases outcome with ⟨_, opens⟩
        apply leads_bind (leads_enter proper limit depth token)
        intro _ _ proper outcome
        rcases outcome with rfl
        exact smaller.tuplePattern (depth + 1) proper opens isOpen
      · intro _
        exact leads_unexpected proper

theorem tuple_pattern_step (smaller : TargetsSpelled limit fuel) (depth : Nat) {origin : Feed}
    {start : Token} (proper : feed.Proper) (opens : Takes origin start feed)
    (isOpen : start.kind = .openParen) :
    Leads feed (Parse.tuplePattern limit (fuel + 1) depth start) fun target after =>
      ReadsAim origin (.one target) after := by
  rw [Parse.tuplePattern]
  apply leads_bind (leads_accept proper (by decide))
  intro closed behind proper outcome
  rcases outcome with ⟨rfl, rfl⟩ | ⟨stop, rfl, closes, isClose⟩
  · apply leads_bind (smaller.pattern depth proper)
    intro target between proper outcome
    rcases outcome with ⟨tokens, inner, takes⟩
    apply leads_bind (leads_accept_else proper (by decide))
    intro grouped later proper outcome
    rcases outcome with ⟨rfl, rfl, goesOn⟩ | ⟨stop, rfl, closes, isClose⟩
    · apply leads_bind (smaller.morePatterns depth proper)
      intro targets behind proper outcome
      rcases outcome with ⟨moreTokens, others, takesMore⟩
      apply leads_bind (leads_consume proper (by decide))
      intro stop after proper outcome
      rcases outcome with ⟨closes, isClose⟩
      refine leads_mono (leads_spanned proper start _) ?_
      intro result _ outcome
      rcases outcome with ⟨rfl, rfl⟩
      rw [closes.span_since]
      have separated := TakesAll.separated goesOn takesMore closes isClose
      exact ⟨_, .tuple isOpen inner separated others isClose,
        .more opens (takes.trans (takesMore.trans (.one closes)))⟩
    · exact leads_pure proper ⟨_, .grouped isOpen inner isClose,
        .more opens (takes.trans (.one closes))⟩
  · refine leads_mono (leads_spanned proper start _) ?_
    intro result _ outcome
    rcases outcome with ⟨rfl, rfl⟩
    rw [closes.span_since]
    exact ⟨_, .empty isOpen isClose, .more opens (.one closes)⟩

theorem more_patterns_step (smaller : TargetsSpelled limit fuel) (depth : Nat)
    (proper : feed.Proper) :
    Leads feed (Parse.morePatterns limit (fuel + 1) depth) fun targets after =>
      ReadsAim feed (.more targets) after := by
  rw [Parse.morePatterns]
  apply leads_bind (leads_accept proper (by decide))
  intro found behind proper outcome
  rcases outcome with ⟨rfl, rfl⟩ | ⟨comma, rfl, takes, isComma⟩
  · exact leads_pure proper ⟨_, .noMore, .none⟩
  · apply leads_bind (leads_check proper _)
    intro closed _ proper outcome
    rcases outcome with rfl
    apply leads_ite
    · intro _
      exact leads_pure proper ⟨_, .lastComma isComma, .one takes⟩
    · intro _
      apply leads_bind (smaller.pattern depth proper)
      intro target between proper outcome
      rcases outcome with ⟨tokens, inner, takesInner⟩
      apply leads_bind (smaller.morePatterns depth proper)
      intro targets after proper outcome
      rcases outcome with ⟨moreTokens, others, takesMore⟩
      exact leads_pure proper ⟨_, .oneMore isComma inner others,
        .more takes (takesInner.trans takesMore)⟩

end TargetsSpelled

/-- What is read as a target spells it. -/
theorem targets_spelled (limit fuel : Nat) : TargetsSpelled limit fuel := by
  induction fuel with
  | zero =>
      constructor <;> intros
      case pattern => rw [pattern]; exact leads_out_of_fuel
      case tuplePattern => rw [tuplePattern]; exact leads_out_of_fuel
      case morePatterns => rw [morePatterns]; exact leads_out_of_fuel
  | succ fuel smaller =>
      constructor
      · exact fun depth _ => smaller.pattern_step depth
      · exact fun depth _ _ _ => smaller.tuple_pattern_step depth
      · exact fun depth _ => smaller.more_patterns_step depth

/-- What a phrase is taken for in front of an assignment. -/
def Phrase.TakenFor : Phrase → Aim → Prop
  | .expression tree, .one found => tree.toPattern = .ok found
  | .more trees, .more found => Expression.toPatterns trees = .ok found
  | _, _ => False

theorem Expression.solid_no_target {tree : Expression} (isSolid : tree.isSolid = true)
    (target : Pattern) : tree.toPattern ≠ .ok target := by
  intro taken
  cases tree with
  | identifier => cases isSolid
  | tuple => cases isSolid
  | _ => cases taken

/-- What tuples are taken for. -/
theorem Expression.tuple_taken {span : Span} {trees : List Expression} {target : Pattern}
    (taken : (Expression.tuple span trees).toPattern = .ok target) :
    ∃ targets, target = .tuple span targets ∧ Expression.toPatterns trees = .ok targets := by
  rw [Expression.toPattern] at taken
  cases found : Expression.toPatterns trees with
  | error error =>
      rw [found] at taken
      cases taken
  | ok targets =>
      rw [found] at taken
      cases taken
      exact ⟨targets, rfl, rfl⟩

theorem Expression.cons_taken {tree : Expression} {trees : List Expression}
    {targets : List Pattern} (taken : Expression.toPatterns (tree :: trees) = .ok targets) :
    ∃ first others, targets = first :: others ∧ tree.toPattern = .ok first ∧
      Expression.toPatterns trees = .ok others := by
  rw [Expression.toPatterns] at taken
  cases first : tree.toPattern with
  | error error =>
      rw [first] at taken
      cases taken
  | ok target =>
      cases others : Expression.toPatterns trees with
      | error error =>
          rw [first, others] at taken
          cases taken
      | ok found =>
          rw [first, others] at taken
          cases taken
          exact ⟨target, found, rfl, rfl, rfl⟩

/-- An expression that is taken for a target spells it. -/
theorem Brackets.reads_aim {limit depth : Nat} {phrase : Phrase} {aim : Aim}
    (brackets : Brackets limit depth feed phrase after) (taken : phrase.TakenFor aim) :
    ReadsAim feed aim after := by
  induction brackets generalizing aim with
  | solid _ isSolid =>
      cases aim with
      | one target => exact absurd taken (Expression.solid_no_target isSolid target)
      | more => exact taken.elim
  | name _ takes named =>
      cases aim with
      | one target =>
          cases taken
          exact ⟨_, .name named, .one takes⟩
      | more => exact taken.elim
  | empty _ opens isOpen closes isClose =>
      cases aim with
      | one target =>
          cases taken
          exact ⟨_, .empty isOpen isClose, .more opens (.one closes)⟩
      | more => exact taken.elim
  | grouped _ opens isOpen _ closes isClose inner =>
      cases aim with
      | one target =>
          obtain ⟨tokens, spells, takes⟩ := inner taken
          exact ⟨_, .grouped isOpen spells isClose, .more opens (takes.trans (.one closes))⟩
      | more => exact taken.elim
  | tuple _ opens isOpen _ goesOn _ closes isClose inner others =>
      cases aim with
      | one target =>
          obtain ⟨targets, rfl, takenAll⟩ := Expression.tuple_taken taken
          obtain ⟨first, more, rfl, takenFirst, takenMore⟩ := Expression.cons_taken takenAll
          obtain ⟨tokens, spells, takes⟩ : ReadsAim _ (.one first) _ := inner takenFirst
          obtain ⟨moreTokens, spellsMore, takesMore⟩ : ReadsAim _ (.more more) _ :=
            others takenMore
          have separated := TakesAll.separated goesOn takesMore closes isClose
          exact ⟨_, .tuple isOpen spells separated spellsMore isClose,
            .more opens (takes.trans (takesMore.trans (.one closes)))⟩
      | more => exact taken.elim
  | noMore =>
      cases aim with
      | one => exact taken.elim
      | more targets =>
          cases taken
          exact ⟨_, .noMore, .none⟩
  | lastComma takes isComma =>
      cases aim with
      | one => exact taken.elim
      | more targets =>
          cases taken
          exact ⟨_, .lastComma isComma, .one takes⟩
  | oneMore takes isComma _ _ inner others =>
      cases aim with
      | one => exact taken.elim
      | more targets =>
          obtain ⟨first, more, rfl, takenFirst, takenMore⟩ := Expression.cons_taken taken
          obtain ⟨tokens, spells, takesInner⟩ : ReadsAim _ (.one first) _ := inner takenFirst
          obtain ⟨moreTokens, spellsMore, takesMore⟩ : ReadsAim _ (.more more) _ :=
            others takenMore
          exact ⟨_, .oneMore isComma spells spellsMore,
            .more takes (takesInner.trans takesMore)⟩

end Spelling

/-- Reading stopped because levels of nesting or fuel ran out. -/
def Halt.isShort : Halt → Bool
  | .outOfFuel => true
  | .error found => found.cause.code == "E106"

/-- A reader gives a value and leaves a feed, unless levels of nesting or fuel run out. -/
def Obtains {α : Type} (feed : Feed) (reader : Parse α) (meets : α → Prop) (after : Feed) : Prop :=
  (∃ value, reader.run feed = .ok (value, after) ∧ meets value) ∨
    ∃ halt, reader.run feed = .error halt ∧ halt.isShort = true

section Obtaining

variable {α β : Type} {feed behind after : Feed} {limit fuel depth : Nat} {token : Token}

theorem obtains_bind {reader : Parse α} {next : α → Parse β} {meets : α → Prop}
    {meets' : β → Prop} (start : Obtains feed reader meets behind)
    (rest : ∀ value, meets value → Obtains behind (next value) meets' after) :
    Obtains feed (reader >>= next) meets' after := by
  rcases start with ⟨value, run, holds⟩ | ⟨halt, run, short⟩
  · rcases rest value holds with ⟨result, further, holds'⟩ | ⟨halt, further, short⟩
    · exact .inl ⟨result, (run_bind_ok run).trans further, holds'⟩
    · exact .inr ⟨halt, (run_bind_ok run).trans further, short⟩
  · exact .inr ⟨halt, run_bind_error run, short⟩

/-- What a reader does first is known. -/
theorem obtains_after {reader : Parse α} {next : α → Parse β} {meets : β → Prop} {value : α}
    (run : reader.run feed = .ok (value, behind)) (rest : Obtains behind (next value) meets after) :
    Obtains feed (reader >>= next) meets after := by
  have known : Obtains feed reader (· = value) behind := .inl ⟨value, run, rfl⟩
  refine obtains_bind known fun found same => ?_
  rw [same]
  exact rest

theorem obtains_pure {meets : α → Prop} {value : α} (holds : meets value) :
    Obtains feed (pure value) meets feed :=
  .inl ⟨value, rfl, holds⟩

theorem obtains_out_of_fuel {meets : α → Prop} : Obtains feed outOfFuel meets after :=
  .inr ⟨.outOfFuel, rfl, rfl⟩

theorem obtains_enter {next : Unit → Parse β} {meets : β → Prop}
    (rest : Obtains feed (next ()) meets after) :
    Obtains feed (enter limit depth token >>= next) meets after := by
  by_cases beyond : depth + 1 > limit
  · refine .inr ⟨.error (.located (.nestingTooDeep limit) token.span), run_bind_error ?_, rfl⟩
    rw [enter, if_pos beyond]
    rfl
  · exact obtains_after (run_enter (by omega)) rest

theorem run_spanned (takes : Takes feed token after) (start : Token) (make : Span → α) :
    (spanFrom start >>= fun span => pure (make span)).run after =
      .ok (make (start.span.join token.span), after) := by
  cases takes
  rfl

/-- A target starts with a name or a parenthesis. -/
theorem SpellsTarget.first {tokens : List Token} {target : Pattern}
    (spells : SpellsTarget tokens (.one target)) (takes : TakesAll feed tokens after) :
    ∃ token, feed.current = .ok token ∧
      (token.kind = .identifier ∨ token.kind = .openParen) := by
  cases spells with
  | name named =>
      cases takes with
      | more first => exact ⟨_, first.current, .inl (Token.name_some named)⟩
  | empty isOpen | grouped isOpen | tuple isOpen =>
      cases takes with
      | more first => exact ⟨_, first.current, .inr isOpen⟩

/-- Further targets start with a comma. -/
theorem SpellsTarget.comma {tokens : List Token} {targets : List Pattern}
    (spells : SpellsTarget tokens (.more targets)) (present : tokens ≠ [])
    (takes : TakesAll feed tokens after) :
    ∃ token, feed.current = .ok token ∧ token.kind = .comma := by
  cases spells with
  | noMore => exact absurd rfl present
  | lastComma isComma | oneMore isComma =>
      cases takes with
      | more first => exact ⟨_, first.current, isComma⟩

/-- No parenthesis closes in front of a target. -/
theorem SpellsTarget.run_accept_close {tokens : List Token} {target : Pattern}
    (spells : SpellsTarget tokens (.one target)) (takes : TakesAll feed tokens after) :
    (accept .closeParen).run feed = .ok (none, feed) ∧
      (check .closeParen).run feed = .ok (false, feed) := by
  obtain ⟨token, isCurrent, isFirst⟩ := spells.first takes
  have other : token.kind ≠ .closeParen := by
    rcases isFirst with isName | isOpen
    · simp [isName]
    · simp [isOpen]
  refine ⟨run_accept_none isCurrent other, ?_⟩
  rw [run_check isCurrent, beq_eq_false_iff_ne.2 other]

/-- Behind an opening parenthesis the rest of a target is read one level deeper. -/
theorem obtains_parenthesised {start : Token} {meets : Pattern → Prop}
    (opens : Takes feed start behind) (isOpen : start.kind = .openParen)
    (inner : ∀ fuel depth, Obtains behind (tuplePattern limit (fuel + 1) depth start) meets after)
    (fuel depth : Nat) : Obtains feed (pattern limit fuel depth) meets after := by
  cases fuel with
  | zero =>
      rw [pattern]
      exact obtains_out_of_fuel
  | succ fuel =>
      have noName : start.name? = none := by simp [Token.name?, isOpen]
      rw [pattern]
      refine obtains_after (run_current opens.current) ?_
      simp only [noName, if_pos isOpen]
      refine obtains_after opens.run_advance (obtains_enter ?_)
      cases fuel with
      | zero =>
          rw [tuplePattern]
          exact obtains_out_of_fuel
      | succ fuel => exact inner fuel (depth + 1)

/-- What tokens are read as where a target is expected. The rest of a tuple ends with a
parenthesis. -/
def Aim.ObtainedFrom (limit : Nat) (tokens : List Token) : Aim → Prop
  | .one target => ∀ (fuel depth : Nat) ⦃feed after : Feed⦄, TakesAll feed tokens after →
      Obtains feed (pattern limit fuel depth) (· = target) after
  | .more targets => ∀ (fuel depth : Nat) ⦃feed after last : Feed⦄ ⦃stop : Token⦄,
      TakesAll feed tokens after → Takes after stop last → stop.kind = .closeParen →
      Obtains feed (morePatterns limit fuel depth) (· = targets) after

/-- What spells a target is read as that target. -/
theorem SpellsTarget.obtained {tokens : List Token} {aim : Aim} (spells : SpellsTarget tokens aim)
    (limit : Nat) : aim.ObtainedFrom limit tokens := by
  induction spells with
  | name named =>
      intro fuel depth feed after takes
      have taken := takes.last
      cases fuel with
      | zero =>
          rw [pattern]
          exact obtains_out_of_fuel
      | succ fuel =>
          rw [pattern]
          refine obtains_after (run_current taken.current) ?_
          simp only [named]
          exact obtains_after taken.run_advance (obtains_pure rfl)
  | empty isOpen isClose =>
      intro fuel depth feed after takes
      cases takes with
      | more opens rest =>
          have closes := rest.last
          refine obtains_parenthesised opens isOpen (fun fuel depth => ?_) fuel depth
          rw [tuplePattern]
          exact obtains_after (closes.run_accept isClose)
            (.inl ⟨_, run_spanned closes _ _, rfl⟩)
  | grouped isOpen inner isClose read =>
      intro fuel depth feed after takes
      cases takes with
      | more opens rest =>
          obtain ⟨between, takesInner, takesStop⟩ := rest.split
          have closes := takesStop.last
          refine obtains_parenthesised opens isOpen (fun fuel depth => ?_) fuel depth
          rw [tuplePattern]
          refine obtains_after (inner.run_accept_close takesInner).1 ?_
          refine obtains_bind (read fuel depth takesInner) fun found same => ?_
          exact obtains_after (closes.run_accept isClose) (obtains_pure same)
  | @tuple start stop _ _ _ _ isOpen inner separated others isClose read readMore =>
      intro fuel depth feed after takes
      cases takes with
      | more opens rest =>
          obtain ⟨between, takesInner, rest⟩ := rest.split
          obtain ⟨last, takesMore, takesStop⟩ := rest.split
          have closes := takesStop.last
          obtain ⟨comma, isCurrent, isComma⟩ := others.comma separated takesMore
          refine obtains_parenthesised opens isOpen (fun fuel depth => ?_) fuel depth
          rw [tuplePattern]
          refine obtains_after (inner.run_accept_close takesInner).1 ?_
          refine obtains_bind (read fuel depth takesInner) fun found same => ?_
          refine obtains_after (run_accept_none isCurrent (by simp [isComma])) ?_
          refine obtains_bind (readMore fuel depth takesMore closes isClose) fun more sameMore => ?_
          refine obtains_after (closes.run_consume isClose) ?_
          rw [same, sameMore]
          exact .inl ⟨_, run_spanned closes _ _, rfl⟩
  | noMore =>
      intro fuel depth feed after last stop takes closes isClose
      cases takes
      cases fuel with
      | zero =>
          rw [morePatterns]
          exact obtains_out_of_fuel
      | succ fuel =>
          rw [morePatterns]
          exact obtains_after (run_accept_none closes.current (by simp [isClose]))
            (obtains_pure rfl)
  | lastComma isComma =>
      intro fuel depth feed after last stop takes closes isClose
      cases fuel with
      | zero =>
          rw [morePatterns]
          exact obtains_out_of_fuel
      | succ fuel =>
          rw [morePatterns]
          refine obtains_after (takes.last.run_accept isComma) ?_
          refine obtains_after (run_check closes.current .closeParen) ?_
          simp only [isClose, beq_self_eq_true, if_true]
          exact obtains_pure rfl
  | oneMore isComma inner others read readMore =>
      intro fuel depth feed after last stop takes closes isClose
      cases takes with
      | more takesComma rest =>
          obtain ⟨between, takesInner, takesMore⟩ := rest.split
          cases fuel with
          | zero =>
              rw [morePatterns]
              exact obtains_out_of_fuel
          | succ fuel =>
              rw [morePatterns]
              refine obtains_after (takesComma.run_accept isComma) ?_
              refine obtains_after (inner.run_accept_close takesInner).2 ?_
              refine obtains_bind (read fuel depth takesInner) fun found same => ?_
              refine obtains_bind (readMore fuel depth takesMore closes isClose)
                fun more sameMore => ?_
              exact obtains_pure (by rw [same, sameMore])

end Obtaining

section Descending

variable {feed after : Feed} {limit : Nat} {meets : Expression → Prop}

/-- What is read as a primary expression, and is continued by nothing, is read as an expression. -/
theorem obtains_postfixed (stops : after.Stops 0)
    (reads : ∀ fuel depth, Obtains feed (primary limit fuel depth) meets after)
    (fuel depth : Nat) : Obtains feed (postfixed limit fuel depth) meets after := by
  cases fuel with
  | zero =>
      rw [postfixed]
      exact obtains_out_of_fuel
  | succ fuel =>
      rw [postfixed]
      refine obtains_bind (reads fuel depth) fun found holds => ?_
      cases fuel with
      | zero =>
          rw [postfixRest]
          exact obtains_out_of_fuel
      | succ fuel =>
          exact .inl ⟨found, postfix_rest_stops found (stops.mono (by omega)), holds⟩

theorem obtains_power (stops : after.Stops 0)
    (reads : ∀ fuel depth, Obtains feed (primary limit fuel depth) meets after)
    (fuel depth : Nat) : Obtains feed (power limit fuel depth) meets after := by
  cases fuel with
  | zero =>
      rw [power]
      exact obtains_out_of_fuel
  | succ fuel =>
      rw [power]
      refine obtains_bind (obtains_postfixed stops reads fuel depth) fun found holds => ?_
      exact obtains_after (accept_open_stops stops rfl (by omega)) (obtains_pure holds)

theorem obtains_unary (stops : after.Stops 0) {token : Token} (isCurrent : feed.current = .ok token)
    (plain : UnaryOperator.ofTokenClass? token.kind = none)
    (reads : ∀ fuel depth, Obtains feed (primary limit fuel depth) meets after)
    (fuel depth : Nat) : Obtains feed (unary limit fuel depth) meets after := by
  cases fuel with
  | zero =>
      rw [unary]
      exact obtains_out_of_fuel
  | succ fuel =>
      rw [unary]
      refine obtains_after (run_current isCurrent) ?_
      simp only [plain]
      exact obtains_power stops reads fuel depth

theorem obtains_conditional (stops : after.Stops 0) {token : Token}
    (isCurrent : feed.current = .ok token)
    (plain : UnaryOperator.ofTokenClass? token.kind = none)
    (reads : ∀ fuel depth, Obtains feed (primary limit fuel depth) meets after)
    (fuel depth : Nat) : Obtains feed (conditional limit fuel depth) meets after := by
  have asBinary : ∀ fuel, Obtains feed (binary limit fuel depth 0) meets after := by
    intro fuel
    cases fuel with
    | zero =>
        rw [binary]
        exact obtains_out_of_fuel
    | succ fuel =>
        rw [binary]
        refine obtains_bind (obtains_unary stops isCurrent plain reads fuel depth)
          fun found holds => ?_
        cases fuel with
        | zero =>
            rw [binaryRest]
            exact obtains_out_of_fuel
        | succ fuel => exact .inl ⟨found, binary_rest_stops found stops (by omega), holds⟩
  cases fuel with
  | zero =>
      rw [conditional]
      exact obtains_out_of_fuel
  | succ fuel =>
      rw [conditional]
      refine obtains_bind (asBinary fuel) fun found holds => ?_
      exact obtains_after (accept_open_stops stops rfl (by omega)) (obtains_pure holds)

theorem obtains_expression (stops : after.Stops 0) {token : Token}
    (isCurrent : feed.current = .ok token)
    (plain : UnaryOperator.ofTokenClass? token.kind = none)
    (reads : ∀ fuel depth, Obtains feed (primary limit fuel depth) meets after)
    (fuel depth : Nat) : Obtains feed (expression limit fuel depth) meets after := by
  cases fuel with
  | zero =>
      rw [expression]
      exact obtains_out_of_fuel
  | succ fuel =>
      rw [expression]
      refine obtains_after (run_current isCurrent) (obtains_enter ?_)
      cases fuel with
      | zero =>
          rw [rebinding]
          exact obtains_out_of_fuel
      | succ fuel =>
          rw [rebinding]
          refine obtains_bind (obtains_conditional stops isCurrent plain reads fuel (depth + 1))
            fun found holds => ?_
          exact obtains_after (accept_open_stops stops rfl (by omega)) (obtains_pure holds)

/-- Nothing continues an expression in front of a comma or a closing parenthesis. -/
theorem stops_before_close {token : Token} (isCurrent : feed.current = .ok token)
    (closes : token.kind = .comma ∨ token.kind = .closeParen) : feed.Stops 0 := by
  refine Feed.stops_of_untied isCurrent ?_
  rcases closes with isComma | isClose
  · rw [isComma]
    rfl
  · rw [isClose]
    rfl

theorem Token.no_literal {token : Token}
    (starts : token.kind = .identifier ∨ token.kind = .openParen) : token.literal? = none := by
  rw [Token.literal?, if_neg]
  rcases starts with isName | isOpen
  · rw [isName]
    cases token.payload <;> simp [Literal.tokenClass]
  · rw [isOpen]
    cases token.payload <;> simp [Literal.tokenClass]

/-- A parenthesis opens a group. -/
theorem obtains_group {behind : Feed} {start : Token} (opens : Takes feed start behind)
    (isOpen : start.kind = .openParen) (stops : after.Stops 0)
    (inner : ∀ fuel depth, Obtains feed (group limit (fuel + 1) depth) meets after)
    (fuel depth : Nat) : Obtains feed (expression limit fuel depth) meets after := by
  have plain : UnaryOperator.ofTokenClass? start.kind = none := by
    rw [isOpen]
    rfl
  refine obtains_expression stops opens.current plain (fun fuel depth => ?_) fuel depth
  cases fuel with
  | zero =>
      rw [primary]
      exact obtains_out_of_fuel
  | succ fuel =>
      have noLiteral := Token.no_literal (.inr isOpen)
      have noName : start.name? = none := by simp [Token.name?, isOpen]
      rw [primary]
      refine obtains_after (run_current opens.current) ?_
      simp only [noLiteral, noName, if_pos isOpen]
      cases fuel with
      | zero =>
          rw [group]
          exact obtains_out_of_fuel
      | succ fuel => exact inner fuel depth

/-- What tokens are read as where an expression is expected, as far as a target goes. Nothing
continues the expression behind them. -/
def Aim.TakenFrom (limit : Nat) (tokens : List Token) : Aim → Prop
  | .one target => ∀ (fuel depth : Nat) ⦃feed after : Feed⦄, TakesAll feed tokens after →
      after.Stops 0 →
      Obtains feed (expression limit fuel depth) (fun found => found.toPattern = .ok target) after
  | .more targets => ∀ (fuel depth : Nat) ⦃feed after last : Feed⦄ ⦃stop : Token⦄,
      TakesAll feed tokens after → Takes after stop last → stop.kind = .closeParen →
      Obtains feed (moreExpressions limit fuel depth)
        (fun found => Expression.toPatterns found = .ok targets) after

/-- In front of further targets and a closing parenthesis an expression ends. -/
theorem SpellsTarget.stops {tokens : List Token} {targets : List Pattern} {last : Feed}
    {stop : Token} (spells : SpellsTarget tokens (.more targets))
    (takes : TakesAll feed tokens after) (closes : Takes after stop last)
    (isClose : stop.kind = .closeParen) : feed.Stops 0 := by
  by_cases present : tokens = []
  · subst present
    cases takes
    exact stops_before_close closes.current (.inr isClose)
  · obtain ⟨comma, isCurrent, isComma⟩ := spells.comma present takes
    exact stops_before_close isCurrent (.inl isComma)

/-- What spells a target is read as an expression that is taken for it. -/
theorem SpellsTarget.taken {tokens : List Token} {aim : Aim} (spells : SpellsTarget tokens aim)
    (limit : Nat) : aim.TakenFrom limit tokens := by
  induction spells with
  | @name token name named =>
      intro fuel depth feed after takes stops
      have taken := takes.last
      have isName := Token.name_some named
      have plain : UnaryOperator.ofTokenClass? token.kind = none := by
        rw [isName]
        rfl
      refine obtains_expression stops taken.current plain (fun fuel depth => ?_) fuel depth
      cases fuel with
      | zero =>
          rw [primary]
          exact obtains_out_of_fuel
      | succ fuel =>
          have noLiteral := Token.no_literal (.inl isName)
          rw [primary]
          refine obtains_after (run_current taken.current) ?_
          simp only [noLiteral, named]
          exact obtains_after taken.run_advance (obtains_pure rfl)
  | empty isOpen isClose =>
      intro fuel depth feed after takes stops
      cases takes with
      | more opens rest =>
          have closes := rest.last
          refine obtains_group opens isOpen stops (fun fuel depth => ?_) fuel depth
          rw [group]
          refine obtains_after opens.run_advance ?_
          exact obtains_after (closes.run_accept isClose)
            (.inl ⟨_, run_spanned closes _ _, rfl⟩)
  | grouped isOpen inner isClose read =>
      intro fuel depth feed after takes stops
      cases takes with
      | more opens rest =>
          obtain ⟨between, takesInner, takesStop⟩ := rest.split
          have closes := takesStop.last
          have innerStops := stops_before_close closes.current (.inr isClose)
          refine obtains_group opens isOpen stops (fun fuel depth => ?_) fuel depth
          rw [group]
          refine obtains_after opens.run_advance ?_
          refine obtains_after (inner.run_accept_close takesInner).1 ?_
          refine obtains_bind (read fuel depth takesInner innerStops) fun found taken => ?_
          exact obtains_after (closes.run_accept isClose) (obtains_pure taken)
  | @tuple start stop _ _ _ _ isOpen inner separated others isClose read readMore =>
      intro fuel depth feed after takes stops
      cases takes with
      | more opens rest =>
          obtain ⟨between, takesInner, rest⟩ := rest.split
          obtain ⟨last, takesMore, takesStop⟩ := rest.split
          have closes := takesStop.last
          have innerStops := others.stops takesMore closes isClose
          obtain ⟨comma, isCurrent, isComma⟩ := others.comma separated takesMore
          refine obtains_group opens isOpen stops (fun fuel depth => ?_) fuel depth
          rw [group]
          refine obtains_after opens.run_advance ?_
          refine obtains_after (inner.run_accept_close takesInner).1 ?_
          refine obtains_bind (read fuel depth takesInner innerStops) fun found taken => ?_
          refine obtains_after (run_accept_none isCurrent (by simp [isComma])) ?_
          refine obtains_bind (readMore fuel depth takesMore closes isClose)
            fun more takenMore => ?_
          refine obtains_after (closes.run_consume isClose) ?_
          refine .inl ⟨_, run_spanned closes _ _, ?_⟩
          simp only [Expression.toPattern, Expression.toPatterns, taken, takenMore]
          rfl
  | noMore =>
      intro fuel depth feed after last stop takes closes isClose
      cases takes
      cases fuel with
      | zero =>
          rw [moreExpressions]
          exact obtains_out_of_fuel
      | succ fuel =>
          rw [moreExpressions]
          exact obtains_after (run_accept_none closes.current (by simp [isClose]))
            (obtains_pure rfl)
  | lastComma isComma =>
      intro fuel depth feed after last stop takes closes isClose
      cases fuel with
      | zero =>
          rw [moreExpressions]
          exact obtains_out_of_fuel
      | succ fuel =>
          rw [moreExpressions]
          refine obtains_after (takes.last.run_accept isComma) ?_
          refine obtains_after (run_check closes.current .closeParen) ?_
          simp only [isClose, beq_self_eq_true, if_true]
          exact obtains_pure rfl
  | oneMore isComma inner others read readMore =>
      intro fuel depth feed after last stop takes closes isClose
      cases takes with
      | more takesComma rest =>
          obtain ⟨between, takesInner, takesMore⟩ := rest.split
          have innerStops := others.stops takesMore closes isClose
          cases fuel with
          | zero =>
              rw [moreExpressions]
              exact obtains_out_of_fuel
          | succ fuel =>
              rw [moreExpressions]
              refine obtains_after (takesComma.run_accept isComma) ?_
              refine obtains_after (inner.run_accept_close takesInner).2 ?_
              refine obtains_bind (read fuel depth takesInner innerStops) fun found taken => ?_
              refine obtains_bind (readMore fuel depth takesMore closes isClose)
                fun more takenMore => ?_
              refine obtains_pure ?_
              simp only [Expression.toPatterns, taken, takenMore]
              rfl

end Descending

end LayoutScript
