import LayoutScript.Proofs.Token.Extent
import LayoutScript.Proofs.Tree.Bodies
import LayoutScript.Proofs.Tree.Parallel

/-!
The ranges of trees nest. The tokens of a source come in order, and a reader takes them one by
one, so whatever is read next lies behind the place where the last token stopped. The one
exception are the dedents of a line, which share a range; but no tree starts with a dedent.
-/

namespace LayoutScript

/-- The parts of a node, in the order of the source. A named function is a statement around a
function with the same range. -/
def Node.parts : Node → List Node
  | .expression (.literal _ _) | .expression (.identifier _ _) => []
  | .expression (.tuple _ elements) => elements.map .expression
  | .expression (.binary _ left _ right) => [.expression left, .expression right]
  | .expression (.unary _ _ operand) => [.expression operand]
  | .expression (.call _ callee arguments) => .expression callee :: arguments.map .expression
  | .expression (.member _ target _) => [.expression target]
  | .expression (.conditional _ condition whenTrue whenFalse) =>
      [.expression condition, .expression whenTrue, .expression whenFalse]
  | .expression (.rebind _ _ value) => [.expression value]
  | .expression (.function _ _ body) => [.block body]
  | .pattern (.identifier _ _) => []
  | .pattern (.tuple _ elements) => elements.map .pattern
  | .statement (.declare _ target value) => [.pattern target, .expression value]
  | .statement (.assign _ target value) => [.pattern target, .expression value]
  | .statement (.evaluate _ tree _) => [.expression tree]
  | .statement (.whileLoop _ condition body) => [.expression condition, .block body]
  | .statement (.ifBlock _ condition body) => [.expression condition, .block body]
  | .statement (.define span _ parameters body) => [.expression (.function span parameters body)]
  | .block (.valued _ statements value) => statements.map .statement ++ [.expression value]
  | .block (.silent _ statements) => statements.map .statement

/-- The nodes below a program: its statements and the parts of such nodes. -/
inductive Program.Has (program : Program) : Node → Prop where
  | statement {tree : Statement} (member : tree ∈ program.statements) :
      Has program (.statement tree)
  | part {node part : Node} (has : Has program node) (member : part ∈ node.parts) :
      Has program part

/-- A range lies in a text of some size and holds other ranges, one behind the other. -/
structure Span.Holds (size : Nat) (whole : Span) (parts : List Span) : Prop where
  forward : whole.start.offset ≤ whole.stop.offset
  bounded : whole.stop.offset ≤ size
  within : ∀ part ∈ parts, whole.start.offset ≤ part.start.offset ∧
    part.stop.offset ≤ whole.stop.offset
  apart : parts.Pairwise fun first second => first.stop.offset ≤ second.start.offset

/-- Ranges between two offsets, one behind the other. -/
structure Span.Row (lower upper : Nat) (spans : List Span) : Prop where
  inside : ∀ span ∈ spans, lower ≤ span.start.offset ∧ span.start.offset ≤ span.stop.offset ∧
    span.stop.offset ≤ upper
  apart : spans.Pairwise fun first second => first.stop.offset ≤ second.start.offset

namespace Span.Row

variable {lower upper : Nat} {span : Span} {spans : List Span}

theorem nil : Row lower upper [] := ⟨List.forall_mem_nil _, .nil⟩

theorem widen {lower' upper' : Nat} (row : Row lower upper spans) (least : lower' ≤ lower)
    (most : upper ≤ upper') : Row lower' upper' spans := by
  refine ⟨fun span member => ?_, row.apart⟩
  have inside := row.inside span member
  omega

theorem append {lower' upper' : Nat} {others : List Span} (first : Row lower upper spans)
    (second : Row lower' upper' others) (least : lower ≤ lower') (between : upper ≤ lower')
    (most : upper ≤ upper') : Row lower upper' (spans ++ others) := by
  constructor
  · rw [List.forall_mem_append]
    exact ⟨(first.widen (Nat.le_refl _) most).inside, (second.widen least (Nat.le_refl _)).inside⟩
  · rw [List.pairwise_append]
    refine ⟨first.apart, second.apart, fun early isEarly late isLate => ?_⟩
    have before := first.inside early isEarly
    have behind := second.inside late isLate
    omega

/-- A row starts where its first range does. -/
theorem tight_first (row : Row lower upper (span :: spans)) :
    Row span.start.offset upper (span :: spans) := by
  have inside := row.inside
  rw [List.forall_mem_cons] at inside
  have apart := List.pairwise_cons.1 row.apart
  refine ⟨List.forall_mem_cons.2 ⟨⟨Nat.le_refl _, inside.1.2⟩, fun other member => ?_⟩, row.apart⟩
  have own := inside.2 other member
  have behind := apart.1 other member
  have forward := inside.1.2.1
  omega

/-- A row stops where its last range does. -/
theorem tight_last (spans : List Span) (row : Row lower upper (spans ++ [span])) :
    Row lower span.stop.offset (spans ++ [span]) := by
  have inside := row.inside
  rw [List.forall_mem_append, List.forall_mem_singleton] at inside
  have apart := (List.pairwise_append.1 row.apart).2.2
  refine ⟨?_, row.apart⟩
  rw [List.forall_mem_append, List.forall_mem_singleton]
  refine ⟨fun other member => ?_, inside.2.1, inside.2.2.1, Nat.le_refl _⟩
  have own := inside.1 other member
  have before := apart other member span (List.mem_singleton_self _)
  have forward := inside.2.2.1
  omega

/-- The last range may become smaller. -/
theorem shrink_last {smaller : Span} (row : Row lower upper (spans ++ [span]))
    (start : span.start.offset ≤ smaller.start.offset)
    (forward : smaller.start.offset ≤ smaller.stop.offset)
    (stop : smaller.stop.offset ≤ span.stop.offset) : Row lower upper (spans ++ [smaller]) := by
  have inside := row.inside
  rw [List.forall_mem_append, List.forall_mem_singleton] at inside
  have apart := List.pairwise_append.1 row.apart
  constructor
  · rw [List.forall_mem_append, List.forall_mem_singleton]
    exact ⟨inside.1, by omega, forward, by omega⟩
  · rw [List.pairwise_append]
    refine ⟨apart.1, List.pairwise_singleton _ _, fun other member last isLast => ?_⟩
    have before := apart.2.2 other member span (List.mem_singleton_self _)
    rw [List.mem_singleton.1 isLast]
    omega

end Span.Row

/-- A node holds its parts, and so does each of them. -/
inductive Node.Nested (size : Nat) : Node → Prop where
  | intro {node : Node} (holds : node.span.Holds size (node.parts.map Node.span))
      (parts : ∀ part ∈ node.parts, Nested size part) : Nested size node

theorem Node.Nested.holds {size : Nat} {node : Node} (nested : node.Nested size) :
    node.span.Holds size (node.parts.map Node.span) := by
  cases nested with
  | intro holds _ => exact holds

theorem Node.Nested.parts {size : Nat} {node : Node} (nested : node.Nested size) :
    ∀ part ∈ node.parts, part.Nested size := by
  cases nested with
  | intro _ parts => exact parts

/-- Tokens come behind a place and in order, up to the size of a text. -/
def Token.Runs (size : Nat) : Nat → List Token → Prop
  | place, [] => place ≤ size
  | place, token :: tokens =>
      (token.kind ≠ .dedent → place ≤ token.span.start.offset) ∧
        place ≤ token.span.stop.offset ∧ token.span.start.offset ≤ token.span.stop.offset ∧
        Token.Runs size token.span.stop.offset tokens

theorem Token.Runs.place_le {size place : Nat} {tokens : List Token}
    (runs : Token.Runs size place tokens) : place ≤ size := by
  induction tokens generalizing place with
  | nil => exact runs
  | cons token tokens induction => exact Nat.le_trans runs.2.1 (induction runs.2.2.2)

theorem Token.runs_of_ordered {size place : Nat} {tokens : List Token}
    (ordered : tokens.Pairwise Token.Before)
    (forward : ∀ token ∈ tokens, token.span.start.offset ≤ token.span.stop.offset)
    (bounded : ∀ token ∈ tokens, token.span.stop.offset ≤ size) (within : place ≤ size)
    (behind : ∀ token ∈ tokens, (token.kind ≠ .dedent → place ≤ token.span.start.offset) ∧
      place ≤ token.span.stop.offset) : Token.Runs size place tokens := by
  induction tokens generalizing place with
  | nil => exact within
  | cons token tokens induction =>
      rw [List.forall_mem_cons] at forward bounded behind
      rw [List.pairwise_cons] at ordered
      refine ⟨behind.1.1, behind.1.2, forward.1, ?_⟩
      exact induction ordered.2 forward.2 bounded.2 bounded.1
        fun other member => ⟨(ordered.1 other member).apart, (ordered.1 other member).stop⟩

namespace Feed

variable {size : Nat} {feed middle after : Feed}

/-- Where the token taken last stops. -/
def place (feed : Feed) : Nat := feed.previous.elim 0 fun token => token.span.stop.offset

/-- Where the next token starts, if it starts behind the last one. -/
def front (feed : Feed) : Nat :=
  feed.rest.head?.elim feed.place fun token => max feed.place token.span.start.offset

def Orderly (size : Nat) (feed : Feed) : Prop := Token.Runs size feed.place feed.rest

theorem place_le_front (feed : Feed) : feed.place ≤ feed.front := by
  unfold front
  cases feed.rest with
  | nil => exact Nat.le_refl _
  | cons token tokens => exact Nat.le_max_left _ _

/-- A reader has come from one feed to another. -/
structure Reaches (size : Nat) (feed after : Feed) : Prop where
  orderly : after.Orderly size
  moved : after = feed ∨ feed.front ≤ after.place

namespace Reaches

theorem none (orderly : feed.Orderly size) : Reaches size feed feed := ⟨orderly, .inl rfl⟩

theorem place_le (reaches : Reaches size feed after) : feed.place ≤ after.place := by
  rcases reaches.moved with rfl | further
  · exact Nat.le_refl _
  · exact Nat.le_trans feed.place_le_front further

theorem front_le (reaches : Reaches size feed after) : feed.front ≤ after.front := by
  rcases reaches.moved with rfl | further
  · exact Nat.le_refl _
  · exact Nat.le_trans further after.place_le_front

theorem trans (first : Reaches size feed middle) (second : Reaches size middle after) :
    Reaches size feed after := by
  refine ⟨second.orderly, ?_⟩
  rcases first.moved with rfl | further
  · exact second.moved
  · exact .inr (Nat.le_trans further second.place_le)

end Reaches

end Feed

section Steps

variable {size : Nat} {feed after : Feed} {token : Token} {tokens : List Token}

theorem Takes.place_eq (takes : Takes feed token after) :
    after.place = token.span.stop.offset := by
  cases takes
  rfl

theorem Takes.front_eq (takes : Takes feed token after) :
    feed.front = max feed.place token.span.start.offset := by
  rw [Feed.front, takes.rest_eq]
  rfl

theorem Takes.orderly (takes : Takes feed token after) (orderly : feed.Orderly size) :
    (token.kind ≠ .dedent → feed.place ≤ token.span.start.offset) ∧
      feed.place ≤ token.span.stop.offset ∧
      token.span.start.offset ≤ token.span.stop.offset ∧ after.Orderly size := by
  rw [Feed.Orderly, takes.rest_eq] at orderly
  rw [Feed.Orderly, takes.place_eq]
  exact orderly

theorem Takes.front_le (takes : Takes feed token after) (orderly : feed.Orderly size) :
    feed.front ≤ after.place := by
  rcases takes.orderly orderly with ⟨_, least, forward, _⟩
  rw [takes.front_eq, takes.place_eq]
  exact Nat.max_le.2 ⟨least, forward⟩

theorem Takes.reaches (takes : Takes feed token after) (orderly : feed.Orderly size) :
    feed.Reaches size after :=
  ⟨(takes.orderly orderly).2.2.2, .inr (takes.front_le orderly)⟩

/-- A token that is no dedent starts in front. -/
theorem Takes.starts (takes : Takes feed token after) (orderly : feed.Orderly size)
    (proper : token.kind ≠ .dedent) : token.span.start.offset = feed.front := by
  rw [takes.front_eq, Nat.max_eq_right ((takes.orderly orderly).1 proper)]

theorem Skips.reaches (skips : Skips feed tokens after) (orderly : feed.Orderly size) :
    feed.Reaches size after := by
  induction skips with
  | none => exact .none orderly
  | one takes _ _ induction =>
      have once := takes.reaches orderly
      exact once.trans (induction once.orderly)

theorem Ends.reaches (ends : Ends feed tokens after) (orderly : feed.Orderly size) :
    feed.Reaches size after := by
  cases ends with
  | here => exact .none orderly
  | line takes _ => exact takes.reaches orderly

end Steps

/-- Nodes stand between two feeds, one behind the other, and each of them is nested. -/
structure Sits (size : Nat) (feed : Feed) (nodes : List Node) (after : Feed) : Prop
    extends Feed.Reaches size feed after where
  row : Span.Row feed.front after.place (nodes.map Node.span)
  nested : ∀ node ∈ nodes, node.Nested size

namespace Sits

variable {size : Nat} {feed middle after : Feed} {nodes more : List Node} {node : Node}

theorem nil (reaches : feed.Reaches size after) : Sits size feed [] after :=
  ⟨reaches, .nil, List.forall_mem_nil _⟩

theorem behind (reaches : feed.Reaches size middle) (sits : Sits size middle nodes after) :
    Sits size feed nodes after :=
  ⟨reaches.trans sits.toReaches, sits.row.widen reaches.front_le (Nat.le_refl _), sits.nested⟩

theorem before (sits : Sits size feed nodes middle) (reaches : middle.Reaches size after) :
    Sits size feed nodes after :=
  ⟨sits.toReaches.trans reaches, sits.row.widen (Nat.le_refl _) reaches.place_le, sits.nested⟩

theorem append (first : Sits size feed nodes middle) (second : Sits size middle more after) :
    Sits size feed (nodes ++ more) after := by
  refine ⟨first.toReaches.trans second.toReaches, ?_,
    List.forall_mem_append.2 ⟨first.nested, second.nested⟩⟩
  rw [List.map_append]
  exact first.row.append second.row first.front_le middle.place_le_front second.place_le

/-- A node whose parts are in a row. -/
theorem around (sits : Sits size feed node.parts after)
    (row : Span.Row node.span.start.offset node.span.stop.offset (node.parts.map Node.span))
    (start : feed.front ≤ node.span.start.offset)
    (forward : node.span.start.offset ≤ node.span.stop.offset)
    (stop : node.span.stop.offset ≤ after.place) : Sits size feed [node] after := by
  refine ⟨sits.toReaches, ?_, List.forall_mem_singleton.2 (.intro ?_ sits.nested)⟩
  · exact ⟨List.forall_mem_singleton.2 ⟨start, forward, stop⟩, List.pairwise_singleton _ _⟩
  · have bounded := sits.orderly.place_le
    exact ⟨forward, by omega, fun part member => ⟨(row.inside part member).1,
      (row.inside part member).2.2⟩, row.apart⟩

/-- A node from the front of a feed up to the last token taken. -/
theorem whole (sits : Sits size feed node.parts after) (moved : feed.front ≤ after.place)
    (start : node.span.start.offset = feed.front) (stop : node.span.stop.offset = after.place) :
    Sits size feed [node] after := by
  have row := sits.row
  rw [← start, ← stop] at row
  exact sits.around row (by omega) (by omega) (by omega)

/-- A node that is one token. -/
theorem token {token : Token} (takes : Takes feed token after) (orderly : feed.Orderly size)
    (proper : token.kind ≠ .dedent) (isSpan : node.span = token.span) (bare : node.parts = []) :
    Sits size feed [node] after := by
  apply whole
  · rw [bare]
    exact .nil (takes.reaches orderly)
  · exact takes.front_le orderly
  · rw [isSpan]
    exact takes.starts orderly proper
  · rw [isSpan, takes.place_eq]

variable {first last : Node}

/-- A node with the range of its only part. -/
theorem shared (sits : Sits size feed [first] after) (parts : node.parts = [first])
    (isSpan : node.span = first.span) : Sits size feed [node] after := by
  have inside := sits.row.inside first.span (List.mem_singleton_self _)
  have row := sits.row.tight_first
  rw [← isSpan] at inside
  rw [← parts] at sits
  apply sits.around ?_ inside.1 inside.2.1 inside.2.2
  rw [parts, isSpan]
  exact row.tight_last []

/-- A node from its first to its last part. -/
theorem joined (others : List Node) (sits : Sits size feed (first :: others ++ [last]) after)
    (parts : node.parts = first :: others ++ [last])
    (isSpan : node.span = first.span.join last.span) : Sits size feed [node] after := by
  have row := sits.row
  rw [List.map_append, List.map_cons] at row
  have tight := (row.tight_last (first.span :: others.map Node.span)).tight_first
  have start := (row.inside first.span (by simp)).1
  have stop := (row.inside last.span (by simp)).2.2
  have inside := tight.inside first.span (by simp)
  rw [← parts] at sits
  apply sits.around
  · rw [parts, isSpan, List.map_append, List.map_cons]
    exact tight
  · rw [isSpan]
    exact start
  · rw [isSpan]
    exact Nat.le_trans inside.2.1 inside.2.2
  · rw [isSpan]
    exact stop

/-- A node from its first part up to the last token taken. -/
theorem trailed {others : List Node} (sits : Sits size feed (first :: others) after)
    (parts : node.parts = first :: others)
    (start : node.span.start = first.span.start) (stop : node.span.stop.offset = after.place) :
    Sits size feed [node] after := by
  have inside := sits.row.inside first.span (by simp)
  have tight := sits.row.tight_first
  rw [← parts] at sits
  apply sits.around
  · rw [parts, start, stop]
    exact tight
  · rw [start]
    exact inside.1
  · rw [start, stop]
    exact Nat.le_trans inside.2.1 inside.2.2
  · exact Nat.le_of_eq stop

/-- A node from a place in front of its only part up to the end of that part. -/
theorem preceded (reaches : feed.Reaches size middle) (sits : Sits size middle [last] after)
    (parts : node.parts = [last]) (start : feed.front ≤ node.span.start.offset)
    (before : node.span.start.offset ≤ middle.place) (stop : node.span.stop = last.span.stop) :
    Sits size feed [node] after := by
  have inside := sits.row.inside last.span (List.mem_singleton_self _)
  have tight : Span.Row middle.front last.span.stop.offset [last.span] :=
    sits.row.tight_last []
  have between := middle.place_le_front
  have all := sits.behind reaches
  rw [← parts] at all
  refine all.around ?_ start ?_ ?_
  · rw [parts, stop]
    exact tight.widen (by omega) (Nat.le_refl _)
  · rw [stop]
    omega
  · rw [stop]
    exact inside.2.2

/-- A node from a token up to the last token taken. -/
theorem since {start : Token} (orderly : feed.Orderly size) (opens : Takes feed start middle)
    (proper : start.kind ≠ .dedent) (sits : Sits size middle node.parts after)
    (isSpan : node.span = after.spanSince start)
    (stop : (after.spanSince start).stop.offset = after.place) : Sits size feed [node] after := by
  apply (sits.behind (opens.reaches orderly)).whole
  · exact Nat.le_trans (opens.front_le orderly) sits.place_le
  · rw [isSpan]
    exact opens.starts orderly proper
  · rw [isSpan]
    exact stop

/-- The parts of a body lie as its statements do. -/
theorem body {span : Span} {statements : List Statement}
    (sits : Sits size feed (statements.map .statement) after) :
    Sits size feed (Node.block (.ofStatements span statements)).parts after := by
  unfold Block.ofStatements
  split
  · rename_i place tree isLast
    rcases List.getLast?_eq_some_iff.mp isLast with ⟨front, rfl⟩
    rw [List.map_append, List.map_singleton] at sits
    have row := sits.row
    rcases List.forall_mem_append.1 sits.nested with ⟨early, late⟩
    have nested := late _ (List.mem_singleton_self _)
    have inner := nested.parts (.expression tree) (List.mem_singleton_self _)
    have within := nested.holds.within tree.span (List.mem_singleton_self _)
    rw [List.dropLast_concat, Node.parts]
    refine ⟨sits.toReaches, ?_, List.forall_mem_append.2 ⟨early, List.forall_mem_singleton.2 inner⟩⟩
    rw [List.map_append] at row ⊢
    exact row.shrink_last within.1 inner.holds.forward within.2
  · exact sits

end Sits

/-- Something was taken before the end of what is derived. -/
theorem Derives.previous_some {feed after : Feed} {phrase : Phrase} {tokens : List Token}
    (derives : Derives feed phrase tokens after) :
    (feed.previous.isSome = true → after.previous.isSome = true) ∧
      (phrase.isList = false → after.previous.isSome = true) := by
  have took {feed after : Feed} {token : Token} (takes : Takes feed token after) :
      after.previous.isSome = true := by rw [takes.previous]; rfl
  have skipped {feed after : Feed} {tokens : List Token} (skips : Skips feed tokens after)
      (some : feed.previous.isSome = true) : after.previous.isSome = true := by
    induction skips with
    | none => exact some
    | one takes _ _ induction => exact induction (took takes)
  have ended {feed after : Feed} {tokens : List Token} (ends : Ends feed tokens after)
      (some : feed.previous.isSome = true) : after.previous.isSome = true := by
    cases ends with
    | here => exact some
    | line takes _ => exact took takes
  induction derives <;> grind -linarith [Phrase.isList]

theorem Token.literal_not_dedent {token : Token} {value : Literal}
    (denotes : token.literal? = some value) : token.kind ≠ .dedent := by
  unfold literal? at denotes
  split at denotes
  · rename_i same
    rw [← same]
    cases token.payload <;> simp [Literal.tokenClass]
  · cases denotes

theorem Token.name_not_dedent {token : Token} {name : String} (named : token.name? = some name) :
    token.kind ≠ .dedent := by
  unfold name? at named
  split at named
  · rename_i isName _
    rw [isName]
    decide
  · cases named

/-- No phrase starts with a dedent. -/
theorem Derives.first_kind {feed after : Feed} {phrase : Phrase} {tokens : List Token}
    (derives : Derives feed phrase tokens after) :
    ∀ token ∈ tokens.head?, token.kind ≠ .dedent := by
  have joined {first second : List Token} (proper : ∀ token ∈ first.head?, token.kind ≠ .dedent)
      (nonempty : first ≠ []) : ∀ token ∈ (first ++ second).head?, token.kind ≠ .dedent := by
    cases first with
    | nil => exact absurd rfl nonempty
    | cons token tokens => exact proper
  have skipped {feed after : Feed} {newlines second : List Token}
      (skips : Skips feed newlines after)
      (proper : ∀ token ∈ second.head?, token.kind ≠ .dedent) :
      ∀ token ∈ (newlines ++ second).head?, token.kind ≠ .dedent := by
    cases skips with
    | none => exact proper
    | one takes isNewline _ => simp [isNewline]
  induction derives with
  | literal _ denotes => simpa using Token.literal_not_dedent denotes
  | identifier _ named | nameTarget _ named | lastName _ named | lastNameComma _ named
  | nextName _ named => simpa using Token.name_not_dedent named
  | @unary _ _ _ _ _ operator _ _ spells =>
      cases operator <;> simp [spells, UnaryOperator.tokenClass]
  | binary first _ _ _ proper | call first _ _ proper | member first _ _ _ _ proper
  | rebind first _ _ _ proper => exact joined proper (first.nonempty rfl)
  | conditional first _ _ _ _ _ _ proper =>
      rw [List.append_assoc]
      exact joined proper (first.nonempty rfl)
  | inlineBody _ _ proper => exact proper
  | oneStatement first _ _ proper =>
      rw [List.append_assoc]
      exact joined proper (first.nonempty rfl)
  | declare skips _ isLet =>
      simp only [List.append_assoc]
      exact skipped skips (by simp [isLet])
  | assign skips target _ _ _ _ _ proper =>
      simp only [List.append_assoc]
      exact skipped skips (joined proper (target.nonempty rfl))
  | openExpression skips inner _ proper =>
      simp only [List.append_assoc]
      exact skipped skips (joined proper (inner.nonempty rfl))
  | closedExpression skips _ inner _ _ _ proper =>
      simp only [List.append_assoc]
      exact skipped skips (joined proper (inner.nonempty rfl))
  | whileLoop skips _ isWord | ifBlock skips _ isWord | define skips _ isWord =>
      simp only [List.append_assoc]
      exact skipped skips (by simp [isWord])
  | noMore | noMoreTargets | noStatements => simp
  | lastComma _ isFirst | oneMore _ isFirst | lastTargetComma _ isFirst | oneMoreTarget _ isFirst
  | emptyTuple _ isFirst | grouped _ isFirst | tuple _ isFirst | inlineFunction _ isFirst
  | blockFunction _ isFirst | noArguments _ isFirst | someArguments _ isFirst
  | emptyTarget _ isFirst | groupedTarget _ isFirst | tupleTarget _ isFirst
  | noParameters _ isFirst | someParameters _ isFirst | indentedBody _ isFirst =>
      simp [isFirst]

theorem Derives.stop_since {feed after : Feed} {phrase : Phrase} {tokens : List Token}
    (derives : Derives feed phrase tokens after) (single : phrase.isList = false) (start : Token) :
    (after.spanSince start).stop.offset = after.place := by
  have some := derives.previous_some.2 single
  rcases Option.isSome_iff_exists.1 some with ⟨token, isToken⟩
  rw [Feed.spanSince, Feed.place, isToken]
  rfl

theorem Takes.stop_since {feed after : Feed} {token : Token} (takes : Takes feed token after)
    (start : Token) : (after.spanSince start).stop.offset = after.place := by
  cases takes
  rfl

theorem Derives.start_front {size : Nat} {feed after : Feed} {phrase : Phrase} {tokens : List Token}
    {start : Token} (derives : Derives feed phrase tokens after) (single : phrase.isList = false)
    (orderly : feed.Orderly size) (first : feed.current = .ok start) :
    start.span.start.offset = feed.front := by
  have rest := derives.rest_eq
  have proper := derives.first_kind
  cases tokens with
  | nil => exact absurd rfl (derives.nonempty single)
  | cons token others =>
      rw [Feed.current, rest] at first
      cases first
      rw [Feed.Orderly, rest] at orderly
      rw [Feed.front, rest]
      exact (Nat.max_eq_right (orderly.1 (proper start rfl))).symm

theorem Block.of_statements_span (span : Span) (statements : List Statement) :
    (Block.ofStatements span statements).span = span := by
  unfold Block.ofStatements
  split <;> rfl

/-- A target has the range of the expression that it was. -/
theorem Expression.to_pattern_span {tree : Expression} {pattern : Pattern}
    (fits : tree.toPattern = .ok pattern) : pattern.span = tree.span := by
  cases tree with
  | identifier span name =>
      cases fits
      rfl
  | tuple span elements =>
      cases found : Expression.toPatterns elements with
      | error error =>
          rw [Expression.toPattern, found] at fits
          cases fits
      | ok patterns =>
          rw [Expression.toPattern, found] at fits
          cases fits
          rfl
  | _ => cases fits

mutual

theorem Expression.to_pattern_nested {size : Nat} (tree : Expression) {pattern : Pattern}
    (fits : tree.toPattern = .ok pattern) (nested : (Node.expression tree).Nested size) :
    (Node.pattern pattern).Nested size := by
  cases tree with
  | identifier span name =>
      cases fits
      exact .intro nested.holds nested.parts
  | tuple span elements =>
      cases found : Expression.toPatterns elements with
      | error error =>
          rw [Expression.toPattern, found] at fits
          cases fits
      | ok patterns =>
          rw [Expression.toPattern, found] at fits
          cases fits
          have inner := List.forall_mem_map.1 nested.parts
          rcases Expression.to_patterns_nested elements found inner with ⟨spans, all⟩
          have same : patterns.map (Node.span ∘ .pattern) =
              elements.map (Node.span ∘ .expression) := spans
          refine .intro ?_ (List.forall_mem_map.2 all)
          rw [Node.parts, List.map_map, same, ← List.map_map]
          exact nested.holds
  | _ => cases fits

theorem Expression.to_patterns_nested {size : Nat} (trees : List Expression)
    {patterns : List Pattern} (fits : Expression.toPatterns trees = .ok patterns)
    (nested : ∀ tree ∈ trees, (Node.expression tree).Nested size) :
    patterns.map Pattern.span = trees.map Expression.span ∧
      ∀ pattern ∈ patterns, (Node.pattern pattern).Nested size := by
  cases trees with
  | nil =>
      cases fits
      exact ⟨rfl, List.forall_mem_nil _⟩
  | cons tree trees =>
      rcases List.forall_mem_cons.1 nested with ⟨treeNested, treesNested⟩
      cases first : tree.toPattern with
      | error error =>
          rw [Expression.toPatterns, first] at fits
          cases fits
      | ok pattern =>
          cases others : Expression.toPatterns trees with
          | error error =>
              rw [Expression.toPatterns, first, others] at fits
              cases fits
          | ok morePatterns =>
              rw [Expression.toPatterns, first, others] at fits
              cases fits
              have good := Expression.to_pattern_nested tree first treeNested
              rcases Expression.to_patterns_nested trees others treesNested with ⟨spans, all⟩
              refine ⟨?_, List.forall_mem_cons.2 ⟨good, all⟩⟩
              rw [List.map_cons, List.map_cons, Expression.to_pattern_span first, spans]

end

theorem Sits.retarget {size : Nat} {feed after : Feed} {tree : Expression} {pattern : Pattern}
    (sits : Sits size feed [.expression tree] after) (fits : tree.toPattern = .ok pattern) :
    Sits size feed [.pattern pattern] after := by
  have nested := sits.nested _ (List.mem_singleton_self _)
  refine ⟨sits.toReaches, ?_, List.forall_mem_singleton.2 (tree.to_pattern_nested fits nested)⟩
  have row : Span.Row feed.front after.place [tree.span] := sits.row
  rw [← Expression.to_pattern_span fits] at row
  exact row

/-- The trees that a phrase is made of. -/
def Phrase.roots : Phrase → List Node
  | .expression tree => [.expression tree]
  | .arguments trees | .more trees => trees.map .expression
  | .target tree => [.pattern tree]
  | .moreTargets trees => trees.map .pattern
  | .parameters _ | .names _ => []
  | .body tree => [.block tree]
  | .statements trees => trees.map .statement
  | .statement tree => [.statement tree]

/-- What is derived lies between the feeds, and nests. -/
theorem Derives.sits {size : Nat} {feed after : Feed} {phrase : Phrase} {tokens : List Token}
    (derives : Derives feed phrase tokens after) (orderly : feed.Orderly size) :
    Sits size feed phrase.roots after := by
  induction derives with
  | literal takes denotes => exact .token takes orderly (Token.literal_not_dedent denotes) rfl rfl
  | identifier takes named | nameTarget takes named =>
      exact .token takes orderly (Token.name_not_dedent named) rfl rfl
  | emptyTuple opens isOpen closes _ | emptyTarget opens isOpen closes _ =>
      have opened := (opens.reaches orderly).orderly
      exact .since orderly opens (by simp [isOpen]) (.nil (closes.reaches opened)) rfl
        (closes.stop_since _)
  | grouped opens _ _ closes _ inner | groupedTarget opens _ _ closes _ inner =>
      have opened := opens.reaches orderly
      have sits := inner opened.orderly
      exact (sits.behind opened).before (closes.reaches sits.orderly)
  | tuple opens isOpen _ _ closes _ inner others
  | tupleTarget opens isOpen _ _ closes _ inner others =>
      have first := inner (opens.reaches orderly).orderly
      have sits := first.append (others first.orderly)
      exact .since orderly opens (by simp [isOpen]) (sits.before (closes.reaches sits.orderly)) rfl
        (closes.stop_since _)
  | @unary _ _ _ _ _ operator _ takes spells _ operand =>
      have took := takes.reaches orderly
      have token := takes.orderly orderly
      have proper : operator.tokenClass ≠ .dedent := by
        cases operator <;> simp [UnaryOperator.tokenClass]
      rw [← spells] at proper
      refine .preceded took (operand took.orderly) rfl ?_ ?_ rfl
      · exact Nat.le_of_eq (takes.starts orderly proper).symm
      · rw [takes.place_eq]
        exact token.2.2.1
  | binary _ takes _ _ first second =>
      have left := first orderly
      have took := takes.reaches left.orderly
      exact (left.append ((second took.orderly).behind took)).joined [] rfl rfl
  | call subject _ list callee arguments =>
      have first := callee orderly
      exact (first.append (arguments first.orderly)).trailed rfl rfl (list.stop_since rfl _)
  | member _ takes _ takesIndex _ subject =>
      have first := subject orderly
      have took := takes.reaches first.orderly
      have sits := first.before (took.trans (takesIndex.reaches took.orderly))
      exact sits.trailed rfl rfl takesIndex.place_eq.symm
  | conditional _ asks _ _ parts _ _ first second third =>
      have condition := first orderly
      have asked := asks.reaches condition.orderly
      have whenTrue := (second asked.orderly).behind asked
      have parted := parts.reaches whenTrue.orderly
      have whenFalse := (third parted.orderly).behind parted
      exact ((condition.append whenTrue).append whenFalse).joined [_] rfl rfl
  | rebind _ takes _ _ target second =>
      have name := target orderly
      have took := takes.reaches name.orderly
      have inside := name.row.inside _ (List.mem_singleton_self _)
      refine .preceded (name.toReaches.trans took) (second took.orderly) rfl inside.1 ?_ rfl
      exact Nat.le_trans (Nat.le_trans inside.2.1 inside.2.2) took.place_le
  | inlineFunction takes isFunction _ parts _ derived list inner =>
      have names := list (takes.reaches orderly).orderly
      have parted := names.before (parts.reaches names.orderly)
      have value := (inner parted.orderly).behind parted.toReaches
      exact .since orderly takes (by simp [isFunction]) (value.shared rfl rfl) rfl
        (derived.stop_since rfl _)
  | blockFunction takes isFunction _ parts _ derived list inner =>
      have names := list (takes.reaches orderly).orderly
      have parted := names.before (parts.reaches names.orderly)
      exact .since orderly takes (by simp [isFunction])
        ((inner parted.orderly).behind parted.toReaches) rfl (derived.stop_since rfl _)
  | noArguments opens _ closes _ | noParameters opens _ closes _ =>
      have opened := opens.reaches orderly
      exact .nil (opened.trans (closes.reaches opened.orderly))
  | someArguments opens _ _ _ closes _ inner others =>
      have opened := opens.reaches orderly
      have first := inner opened.orderly
      have sits := first.append (others first.orderly)
      exact (sits.behind opened).before (closes.reaches sits.orderly)
  | noMore | noMoreTargets | noStatements => exact .nil (.none orderly)
  | lastComma takes _ | lastTargetComma takes _ | lastName takes _ =>
      exact .nil (takes.reaches orderly)
  | oneMore takes _ _ _ inner others | oneMoreTarget takes _ _ _ inner others =>
      have took := takes.reaches orderly
      have first := inner took.orderly
      exact (first.append (others first.orderly)).behind took
  | someParameters opens _ _ _ closes _ inner =>
      have opened := opens.reaches orderly
      have sits := inner opened.orderly
      exact (sits.behind opened).before (closes.reaches sits.orderly)
  | lastNameComma takes _ parts _ =>
      have took := takes.reaches orderly
      exact .nil (took.trans (parts.reaches took.orderly))
  | nextName takes _ parts _ _ others =>
      have took := takes.reaches orderly
      have parted := took.trans (parts.reaches took.orderly)
      exact (others parted.orderly).behind parted
  | indentedBody takes isNewline skips opens _ _ closes _ inner =>
      have skipped := skips.reaches (takes.reaches orderly).orderly
      have opened := skipped.trans (opens.reaches skipped.orderly)
      have sits := (inner opened.orderly).behind opened
      exact .since orderly takes (by simp [isNewline])
        (Sits.body (sits.before (closes.reaches sits.orderly))) (Block.of_statements_span _ _)
        (closes.stop_since _)
  | @inlineBody _ _ _ _ tree first derived inner =>
      have sits : Sits _ _ ([tree].map .statement) _ := inner orderly
      have inside := sits.row.inside _ (List.mem_singleton_self _)
      apply Sits.body sits |>.whole
      · exact Nat.le_trans inside.1 (Nat.le_trans inside.2.1 inside.2.2)
      · rw [Node.span, Block.of_statements_span]
        exact derived.start_front rfl orderly first
      · rw [Node.span, Block.of_statements_span]
        exact derived.stop_since rfl _
  | oneStatement _ skips _ first others =>
      have sits := first orderly
      have skipped := skips.reaches sits.orderly
      exact sits.append ((others skipped.orderly).behind skipped)
  | declare skips takes isLet _ parts _ derived ends target inner =>
      have skipped := skips.reaches orderly
      have pattern := target (takes.reaches skipped.orderly).orderly
      have parted := parts.reaches pattern.orderly
      have sits := pattern.append ((inner parted.orderly).behind parted)
      exact .behind skipped (.before (.since skipped.orderly takes (by simp [isLet]) sits rfl
        (derived.stop_since rfl _)) (ends.reaches sits.orderly))
  | assign skips _ fits parts _ _ ends target inner =>
      have skipped := skips.reaches orderly
      have subject := target skipped.orderly
      have parted := parts.reaches subject.orderly
      have sits := (subject.retarget fits).append ((inner parted.orderly).behind parted)
      refine .behind skipped (.before (sits.joined [] rfl ?_) (ends.reaches sits.orderly))
      exact congrArg (Span.join · _) (Expression.to_pattern_span fits).symm
  | openExpression skips _ ends inner =>
      have skipped := skips.reaches orderly
      have sits := inner skipped.orderly
      exact .behind skipped (.before (sits.shared rfl rfl) (ends.reaches sits.orderly))
  | closedExpression skips first derived takes _ ends inner =>
      have skipped := skips.reaches orderly
      have sits := inner skipped.orderly
      have took := takes.reaches sits.orderly
      refine .behind skipped (.before ((sits.before took).whole ?_ ?_ (takes.stop_since _))
        (ends.reaches took.orderly))
      · exact Nat.le_trans sits.front_le (takes.front_le sits.orderly)
      · exact derived.start_front rfl skipped.orderly first
  | whileLoop skips takes isWord _ parts _ derived first inner
  | ifBlock skips takes isWord _ parts _ derived first inner =>
      have skipped := skips.reaches orderly
      have condition := first (takes.reaches skipped.orderly).orderly
      have parted := parts.reaches condition.orderly
      have sits := condition.append ((inner parted.orderly).behind parted)
      exact .behind skipped (.since skipped.orderly takes (by simp [isWord]) sits rfl
        (derived.stop_since rfl _))
  | @define _ _ _ _ _ _ after start _ _ _ _ _ _ names block skips takes isWord takesName _ _ parts _
      derived list inner =>
      have skipped := skips.reaches orderly
      have named := takesName.reaches (takes.reaches skipped.orderly).orderly
      have listed := (list named.orderly).behind named
      have parted := listed.before (parts.reaches listed.orderly)
      have sits := (inner parted.orderly).behind parted.toReaches
      have function : Sits _ _ [.expression (.function (after.spanSince start) names block)] _ :=
        .since skipped.orderly takes (by simp [isWord]) sits rfl (derived.stop_since rfl _)
      exact .behind skipped (.shared function rfl rfl)

theorem Program.Has.nested {size : Nat} {program : Program} {node : Node}
    (has : program.Has node)
    (nested : ∀ tree ∈ program.statements, (Node.statement tree).Nested size) :
    node.Nested size := by
  induction has with
  | statement member => exact nested _ member
  | part _ member induction => exact induction.parts _ member

/-- A program that is read from tokens in order. -/
theorem Program.of_feed_nested {size : Nat} {feed : Feed} {limits : Limits} {program : Program}
    (orderly : feed.Orderly size) (proper : feed.Proper) (fresh : feed.previous = none)
    (full : feed.rest ≠ []) (read : Program.ofFeed feed limits = .ok program) :
    program.span.Holds size (program.statements.map Statement.span) ∧
      ∀ tree ∈ program.statements, (Node.statement tree).Nested size := by
  rcases Program.of_feed_derives proper read with
    ⟨front, after, newlines, tokens, skips, derives, ⟨start, isStart, isSpan⟩, _⟩
  have skipped := skips.reaches orderly
  have sits := (derives.sits skipped.orderly).behind skipped
  have row : Span.Row feed.front after.place (program.statements.map Statement.span) := by
    have row := sits.row
    rw [Phrase.roots, List.map_map] at row
    exact row
  refine ⟨?_, List.forall_mem_map.1 sits.nested⟩
  rcases List.exists_cons_of_ne_nil full with ⟨token, others, rest⟩
  rw [Feed.current, rest] at isStart
  cases isStart
  have none : feed.place = 0 := by rw [Feed.place, fresh]; rfl
  have isFront : feed.front = start.span.start.offset := by
    rw [Feed.front, rest, none]
    exact Nat.max_eq_right (Nat.zero_le _)
  rw [Feed.Orderly, rest] at orderly
  -- The range reaches to the last token taken, or over the first one if none was taken.
  have stop : after.place ≤ program.span.stop.offset ∧
      start.span.start.offset ≤ program.span.stop.offset ∧ program.span.stop.offset ≤ size := by
    rw [isSpan, Feed.spanSince]
    cases taken : after.previous with
    | none =>
        rw [Feed.place, taken]
        exact ⟨Nat.zero_le _, orderly.2.2.1, orderly.2.2.2.place_le⟩
    | some last =>
        have place : after.place = last.span.stop.offset := by rw [Feed.place, taken]; rfl
        have within := sits.orderly.place_le
        rw [place] at within
        rcases sits.moved with rfl | further
        · rw [fresh] at taken
          cases taken
        · rw [place, isFront] at further
          rw [place]
          exact ⟨Nat.le_refl _, further, within⟩
  rw [isFront] at row
  have begins : program.span.start = start.span.start := by rw [isSpan]; rfl
  constructor
  · rw [begins]
    exact stop.2.1
  · exact stop.2.2
  · intro part member
    have inside := row.inside part member
    rw [begins]
    omega
  · exact row.apart

/-- A source that is accepted has tokens, if only the end of input. -/
theorem Program.of_source_tokens {source : String} {file : Option String} {limits : Limits}
    {program : Program}
    (accepted : Program.ofFeed (.ofTokens (tokenize source file).tokens
      (tokenize source file).failure file) limits = .ok program) :
    (tokenize source file).tokens ≠ [] := by
  intro empty
  cases failure : (tokenize source file).failure with
  | some error =>
      rcases Program.of_feed_derives (Feed.of_tokens_proper _ _ _) accepted with
        ⟨_, _, _, _, _, _, ⟨start, isStart, _⟩, _⟩
      rw [empty, failure] at isStart
      cases isStart
  | none =>
      rcases tokenize_delivers failure with ⟨tokens, _, ending, _, _, _, _, read⟩
      rw [read] at empty
      exact List.append_ne_nil_of_right_ne_nil tokens (List.cons_ne_nil _ _) empty

/-- The ranges of a program that is read from source text nest: every node lies in the text and
holds its parts, which come one behind the other. -/
theorem Program.of_source_nested {source : String} {file : Option String} {limits : Limits}
    {program : Program} (read : Program.ofSource source file limits = .ok program) :
    program.span.Holds (Text.dropReturns source.toList).length
        (program.statements.map Statement.span) ∧
      ∀ node, program.Has node →
        node.span.Holds (Text.dropReturns source.toList).length (node.parts.map Node.span) := by
  rcases tokenize_ordered source file with ⟨ordered, lies⟩
  unfold Program.ofSource at read
  extract_lets reading at read
  split at read
  · rename_i accepted
    cases read
    have orderly : (Feed.ofTokens reading.tokens reading.failure file).Orderly
        (Text.dropReturns source.toList).length := by
      refine Token.runs_of_ordered ordered (fun token member => (lies token member).forward)
        (fun token member => (lies token member).stop.exact.within) (Nat.zero_le _) ?_
      exact fun token member => ⟨fun _ => Nat.zero_le _, Nat.zero_le _⟩
    rcases Program.of_feed_nested orderly (Feed.of_tokens_proper _ _ _) rfl
      (Program.of_source_tokens accepted) accepted with ⟨holds, nested⟩
    exact ⟨holds, fun node has => (has.nested nested).holds⟩
  · cases read
  · cases read

/-- Dedents of one line end two blocks, in front of a target whose parentheses are dropped. -/
theorem closed_blocks_nested :
    ∃ program, Program.ofSource "if a:\n while b:\n  c\n((d), e) = (e, d)" none {} = .ok program ∧
      ∀ node, program.Has node → node.span.Holds 37 (node.parts.map Node.span) := by
  cases read : Program.ofSource "if a:\n while b:\n  c\n((d), e) = (e, d)" none {} with
  | error halt =>
      have accepted :
          (Program.ofSource "if a:\n while b:\n  c\n((d), e) = (e, d)" none {}).toBool = true := by
        decide +kernel
      rw [read] at accepted
      cases accepted
  | ok program => exact ⟨program, rfl, (Program.of_source_nested read).2⟩

end LayoutScript
