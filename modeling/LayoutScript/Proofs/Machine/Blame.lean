import LayoutScript.Proofs.Machine.Preservation
import LayoutScript.Proofs.Tree.Bodies
import LayoutScript.Proofs.Value.Faults

/-!
Where evaluation puts the blame. Every error of a script that was read from source text
lies at a node of that script or of one that ran before it on the same machine. This rests
on what a reader can build, that parameters are distinct, and on what a store keeps of it:
the functions in a store were all made from nodes of the scripts that ran.
-/

namespace LayoutScript

open Evaluation

/-- The parameters of a function are distinct. -/
def Node.Distinct : Node → Prop
  | .expression (.function _ parameters _) => parameters.Nodup
  | .statement (.define _ _ parameters _) => parameters.Nodup
  | _ => True

mutual

theorem Pattern.nodes_distinct (tree : Pattern) : ∀ node ∈ tree.nodes, node.Distinct := by
  cases tree with
  | identifier => simp [Node.Distinct]
  | tuple span elements =>
      simp only [Pattern.nodes, List.mem_cons, forall_eq_or_imp]
      exact ⟨trivial, Pattern.nodes_all_distinct elements⟩

theorem Pattern.nodes_all_distinct (trees : List Pattern) :
    ∀ node ∈ Pattern.nodesAll trees, node.Distinct := by
  cases trees with
  | nil => simp
  | cons first others =>
      simp only [Pattern.nodesAll, List.mem_append, or_imp, forall_and]
      exact ⟨Pattern.nodes_distinct first, Pattern.nodes_all_distinct others⟩

end

/-- A phrase in which parameters are distinct. -/
def Phrase.Distinct : Phrase → Prop
  | .parameters given => given.Nodup
  | phrase => ∀ node ∈ phrase.nodes, node.Distinct

theorem Phrase.distinct_of_statements {span : Span} {statements : List Statement}
    (distinct : (Phrase.statements statements).Distinct) :
    (Phrase.body (.ofStatements span statements)).Distinct := by
  unfold Block.ofStatements
  split
  · rename_i place tree last
    obtain ⟨front, rfl⟩ := List.getLast?_eq_some_iff.mp last
    simp only [Phrase.Distinct, Phrase.nodes, Statement.nodes_all_append, Statement.nodesAll,
      Statement.nodes, List.mem_append, List.mem_cons, or_imp, forall_and] at distinct
    simp only [Phrase.Distinct, Phrase.nodes, Block.nodes, List.dropLast_concat, List.mem_append,
      List.mem_cons, or_imp, forall_and, forall_eq]
    exact ⟨trivial, distinct.1, distinct.2.1.2⟩
  · simp only [Phrase.Distinct, Phrase.nodes, Block.nodes, List.mem_cons, or_imp, forall_and,
      forall_eq]
    exact ⟨trivial, distinct⟩

/-- What is derived has distinct parameters throughout. -/
theorem Derives.distinct {feed after : Feed} {phrase : Phrase} {tokens : List Token}
    (derives : Derives feed phrase tokens after) : phrase.Distinct := by
  induction derives with
  | literal | identifier | emptyTuple => exact List.forall_mem_singleton.2 trivial
  | grouped _ _ _ _ _ inner | groupedTarget _ _ _ _ _ inner => exact inner
  | tuple _ _ _ _ _ _ inner others =>
      exact List.forall_mem_cons.2 ⟨trivial, List.forall_mem_append.2 ⟨inner, others⟩⟩
  | unary _ _ _ operand => exact List.forall_mem_cons.2 ⟨trivial, operand⟩
  | binary _ _ _ _ first second =>
      exact List.forall_mem_cons.2 ⟨trivial, List.forall_mem_append.2 ⟨first, second⟩⟩
  | call _ _ _ subject list =>
      exact List.forall_mem_cons.2 ⟨trivial, List.forall_mem_append.2 ⟨subject, list⟩⟩
  | member _ _ _ _ _ subject => exact List.forall_mem_cons.2 ⟨trivial, subject⟩
  | conditional _ _ _ _ _ _ _ first second third =>
      exact List.forall_mem_cons.2 ⟨trivial, List.forall_mem_append.2
        ⟨List.forall_mem_append.2 ⟨first, second⟩, third⟩⟩
  | rebind _ _ _ _ _ second => exact List.forall_mem_cons.2 ⟨trivial, second⟩
  | inlineFunction _ _ _ _ _ _ list inner =>
      exact List.forall_mem_cons.2 ⟨list, List.forall_mem_cons.2 ⟨trivial, inner⟩⟩
  | blockFunction _ _ _ _ _ _ list inner => exact List.forall_mem_cons.2 ⟨list, inner⟩
  | someArguments _ _ _ _ _ _ inner others => exact List.forall_mem_append.2 ⟨inner, others⟩
  | oneMore _ _ _ _ inner others => exact List.forall_mem_append.2 ⟨inner, others⟩
  | nameTarget | emptyTarget | tupleTarget => exact Pattern.nodes_distinct _
  | noMoreTargets | lastTargetComma | oneMoreTarget => exact Pattern.nodes_all_distinct _
  | noParameters => exact List.nodup_nil
  | someParameters _ _ _ distinct => exact distinct
  | noArguments | noMore | lastComma | noStatements | lastName | lastNameComma | nextName =>
      exact List.forall_mem_nil _
  | indentedBody _ _ _ _ _ _ _ _ inner => exact Phrase.distinct_of_statements inner
  | inlineBody _ _ inner =>
      apply Phrase.distinct_of_statements
      exact List.forall_mem_append.2 ⟨inner, List.forall_mem_nil _⟩
  | oneStatement _ _ _ first others => exact List.forall_mem_append.2 ⟨first, others⟩
  | declare _ _ _ _ _ _ _ _ target inner =>
      exact List.forall_mem_cons.2 ⟨trivial, List.forall_mem_append.2 ⟨target, inner⟩⟩
  | assign _ _ _ _ _ _ _ _ inner =>
      exact List.forall_mem_cons.2
        ⟨trivial, List.forall_mem_append.2 ⟨Pattern.nodes_distinct _, inner⟩⟩
  | openExpression _ _ _ inner | closedExpression _ _ _ _ _ _ inner =>
      exact List.forall_mem_cons.2 ⟨trivial, inner⟩
  | whileLoop _ _ _ _ _ _ _ first inner | ifBlock _ _ _ _ _ _ _ first inner =>
      exact List.forall_mem_cons.2 ⟨trivial, List.forall_mem_append.2 ⟨first, inner⟩⟩
  | define _ _ _ _ _ _ _ _ _ list inner => exact List.forall_mem_cons.2 ⟨list, inner⟩

theorem Program.of_source_distinct {source : String} {file : Option String} {limits : Limits}
    {program : Program} (read : Program.ofSource source file limits = .ok program) :
    program.Every Node.Distinct := by
  obtain ⟨_, _, _, _, _, _, _, _, derives⟩ := Program.of_source_derives read
  exact derives.distinct

/-- A node lies at one of given places, and parameters are distinct. -/
def Node.Sited (Places : Span → Prop) (node : Node) : Prop :=
  Places node.span ∧ node.Distinct

/-- The functions in a value are made from nodes at given places, and their parameters are
distinct. -/
def Value.Sited (Places : Span → Prop) (value : Value) : Prop :=
  ∀ closure ∈ value.closures,
    closure.parameters.Nodup ∧ closure.body.Every (Node.Sited Places)

namespace Value

variable {Places : Span → Prop}

/-- A value that carries no code at all holds no functions. -/
theorem Carries.sited {value : Value} (bare : value.Carries fun _ => False) :
    value.Sited Places := by
  intro closure member
  exact (Block.Every.self (bare closure member)).elim

theorem Scalar.sited {value : Value} (scalar : value.Scalar) : value.Sited Places :=
  scalar.carries.sited

theorem sited_closure {closure : Closure} :
    (Value.function (.closure closure)).Sited Places ↔
      closure.parameters.Nodup ∧ closure.body.Every (Node.Sited Places) := by
  simp only [Sited, closures, List.mem_singleton, forall_eq]

theorem sited_tuple {elements : List Value} :
    (Value.tuple elements).Sited Places ↔ ∀ element ∈ elements, element.Sited Places := by
  simp only [Sited, closures, closures_all_mem]
  constructor
  · intro sited element member closure inside
    exact sited closure ⟨element, member, inside⟩
  · rintro sited closure ⟨element, member, inside⟩
    exact sited element member closure inside

theorem Sited.mono {Others : Span → Prop} (wider : ∀ span, Places span → Others span)
    {value : Value} (sited : value.Sited Places) : value.Sited Others := by
  intro closure member
  obtain ⟨distinct, every⟩ := sited closure member
  refine ⟨distinct, fun node inside => ?_⟩
  exact ⟨wider _ (every node inside).1, (every node inside).2⟩

end Value

/-- Evaluation of nodes at given places makes functions of such nodes alone. -/
theorem sited_class (Places : Span → Prop) :
    ValueClass (Node.Sited Places) (Value.Sited Places) where
  literal {_ value} _ := Value.Scalar.sited (by cases value <;> exact trivial)
  nothing := Value.Scalar.sited trivial
  bool := Value.Scalar.sited trivial
  tuple := Value.sited_tuple
  binary _ _ given := (BinaryOperator.apply_scalar _ _ _ _ _ given).sited
  unary _ given := (UnaryOperator.apply_scalar _ _ _ given).sited
  function every := Value.sited_closure.2 ⟨every.self.2, every.function⟩
  define every := Value.sited_closure.2 ⟨every.self.2, every.define⟩
  closureBody good := (Value.sited_closure.1 good).2

/-- A stop is blamed on one of given places, and quotes no line yet. Running out of fuel is no
outcome of a script, and of the faults only those of operands are left. -/
def Stop.Blames (Places : Span → Prop) : Stop → Prop
  | .error found => ∃ span, found = ⟨found.cause, some span, none⟩ ∧ Places span
  | .fault found => found.OfOperands
  | .outOfFuel => True

/-- The last checkpoint was at one of given places. -/
def Machine.Noted (Places : Span → Prop) (machine : Machine) : Prop :=
  ∃ span, machine.lastSpan = some span ∧ Places span

/-- An evaluation keeps a class of values, notes checkpoints at given places, and blames
them whenever it stops. -/
def Accounts (Places : Span → Prop) (Good : Value → Prop) {α : Type} (post : α → Prop)
    (body : Evaluation α) : Prop :=
  Keeps Good post body ∧ ∀ machine, machine.store.Holds Good → machine.Noted Places →
    (body.run machine).2.Noted Places ∧
      ∀ stop, (body.run machine).1 = .error stop → stop.Blames Places

section Accounts

variable {Places : Span → Prop} {Good : Value → Prop} {α β : Type}

/-- A plain step passes no checkpoint. -/
theorem accounts_plain {post : α → Prop} {body : Evaluation α} (isPlain : Plain body)
    (kept : Keeps Good post body)
    (blamed : ∀ machine stop, (body.run machine).1 = .error stop → stop.Blames Places) :
    Accounts Places Good post body := by
  refine ⟨kept, fun machine _ noted => ⟨?_, blamed machine⟩⟩
  obtain ⟨effect, _, runs⟩ := isPlain
  rw [runs]
  exact noted

theorem accounts_pure {post : α → Prop} {value : α} (holds : post value) :
    Accounts Places Good post (pure value) := by
  apply accounts_plain (plain_pure value) (keeps_pure holds)
  intro machine stop stopped
  cases stopped

theorem accounts_fail {post : α → Prop} (cause : Cause) {span : Span} (place : Places span) :
    Accounts Places Good post (fail cause span) := by
  apply accounts_plain (plain_fail cause span) (keeps_throw _)
  intro machine stop stopped
  cases stopped
  exact ⟨span, rfl, place⟩

theorem accounts_out_of_fuel {post : α → Prop} : Accounts Places Good post outOfFuel := by
  refine ⟨keeps_throw _, fun machine _ noted => ⟨noted, fun stop stopped => ?_⟩⟩
  cases stopped
  trivial

theorem accounts_bind {between : α → Prop} {post : β → Prop} {body : Evaluation α}
    {next : α → Evaluation β} (start : Accounts Places Good between body)
    (rest : ∀ value, between value → Accounts Places Good post (next value)) :
    Accounts Places Good post (body >>= next) := by
  refine ⟨keeps_bind start.1 fun value holds => (rest value holds).1, ?_⟩
  intro machine good noted
  obtain ⟨afterGood, given⟩ := start.1 machine good
  obtain ⟨afterNoted, blamed⟩ := start.2 machine good noted
  rcases run_cases body machine with ⟨value, after, run⟩ | ⟨stop, after, run⟩
  · rw [run] at afterGood afterNoted given
    rw [run_bind_ok run]
    exact (rest value (given value rfl)).2 after afterGood afterNoted
  · rw [run] at afterNoted blamed
    rw [run_bind_error run]
    refine ⟨afterNoted, fun other stopped => ?_⟩
    cases stopped
    exact blamed stop rfl

theorem accounts_operator {post : α → Prop} {span : Span} {result : Except Failure α}
    (place : Places span) (inDomain : FaultsInDomain result)
    (holds : ∀ value, result = .ok value → post value) :
    Accounts Places Good post (ofOperator span result) := by
  match result with
  | .ok value => exact accounts_pure (holds value rfl)
  | .error (.cause cause) => exact accounts_fail cause place
  | .error (.fault fault) =>
      apply accounts_plain (plain_throw (by simp)) (keeps_throw _)
      intro machine stop stopped
      cases stopped
      exact inDomain fault rfl

theorem accounts_update_store {post : Unit → Prop} {plan : Store → Except ScriptError α}
    {change : α → Store → Store} (kept : Keeps Good post (updateStore plan change))
    (blamed : ∀ store error, plan store = .error error → (Stop.error error).Blames Places) :
    Accounts Places Good post (updateStore plan change) := by
  apply accounts_plain (plain_update_store plan change) kept
  intro machine stop stopped
  rw [run_update_store] at stopped
  cases planned : plan machine.store with
  | ok found =>
      rw [planned] at stopped
      cases stopped
  | error error =>
      rw [planned] at stopped
      cases stopped
      exact blamed machine.store error planned

theorem accounts_restoring {post : α → Prop} {body : Evaluation α} (name : String)
    (parent : Store → FrameId) (calls : Nat) (accounts : Accounts Places Good post body) :
    Accounts Places Good post (restoring (entering name parent calls) body) := by
  refine ⟨keeps_restoring name parent calls accounts.1, fun machine good noted => ?_⟩
  rw [run_restoring]
  exact accounts.2 (entering name parent calls machine) (Store.holds_enter good name _) noted

theorem accounts_checkpoint (context : Context) (kind : NodeKind) {span : Span}
    (place : Places span) :
    Accounts Places Good (fun _ => True) (checkpoint context kind span) := by
  refine ⟨keeps_checkpoint context kind span, fun machine _ _ => ?_⟩
  rw [run_checkpoint]
  split
  · refine ⟨⟨span, rfl, place⟩, fun stop stopped => ?_⟩
    cases stopped
    exact ⟨span, rfl, place⟩
  · split
    · exact ⟨⟨span, rfl, place⟩, fun stop stopped => by cases stopped⟩
    · split
      · refine ⟨⟨span, rfl, place⟩, fun stop stopped => ?_⟩
        cases stopped
        exact ⟨span, rfl, place⟩
      · exact ⟨⟨span, rfl, place⟩, fun stop stopped => by cases stopped⟩

theorem accounts_lookup {span : Span} (name : String) (place : Places span) :
    Accounts Places Good Good (lookup span name) := by
  apply accounts_plain (plain_lookup span name) (keeps_lookup span name)
  intro machine stop stopped
  rw [run_lookup] at stopped
  split at stopped
  · cases stopped
  · cases stopped
    exact ⟨span, rfl, place⟩

/-- The call that a machine cannot hold is blamed on the last checkpoint. -/
theorem accounts_admit_call (context : Context) {span : Span} (place : Places span) :
    Accounts Places Good (fun _ => True) (admitCall context span) := by
  refine ⟨fun machine good => ⟨good, fun _ _ => trivial⟩, fun machine _ noted => ⟨noted, ?_⟩⟩
  intro stop stopped
  rw [run_admit_call, admission] at stopped
  split at stopped
  · cases stopped
    exact ⟨span, rfl, place⟩
  · split at stopped
    · cases stopped
      obtain ⟨last, isLast, lastPlace⟩ := noted
      exact ⟨last, by rw [isLast], lastPlace⟩
    · cases stopped

end Accounts

mutual

/-- The names of a pattern lie where its nodes do. -/
theorem Pattern.leaves_at {Places : Span → Prop} : ∀ (pattern : Pattern),
    (∀ node ∈ pattern.nodes, Places node.span) → ∀ leaf ∈ pattern.leaves, Places leaf.1
  | .identifier span name, places => by
      rw [Pattern.leaves]
      exact List.forall_mem_singleton.2 (places _ List.mem_cons_self)
  | .tuple span elements, places => by
      rw [Pattern.leaves]
      exact Pattern.leaves_all_at elements fun node inside =>
        places node (List.mem_cons_of_mem _ inside)

theorem Pattern.leaves_all_at {Places : Span → Prop} : ∀ (patterns : List Pattern),
    (∀ node ∈ Pattern.nodesAll patterns, Places node.span) →
    ∀ leaf ∈ Pattern.leavesAll patterns, Places leaf.1
  | [], _ => by
      rw [Pattern.leavesAll]
      exact List.forall_mem_nil _
  | pattern :: patterns, places => by
      obtain ⟨first, others⟩ := List.forall_mem_append.1 places
      rw [Pattern.leavesAll]
      exact List.forall_mem_append.2
        ⟨Pattern.leaves_at pattern first, Pattern.leaves_all_at patterns others⟩

end

mutual

/-- A pattern that does not fit a value is to blame itself, or a part of it is. -/
theorem Pattern.targets_blame {Places : Span → Prop} {error : ScriptError} :
    ∀ (pattern : Pattern) (value : Value), (∀ node ∈ pattern.nodes, Places node.span) →
    pattern.targets value = .error error → (Stop.error error).Blames Places
  | .identifier span name, value, places, failed => by
      rw [Pattern.targets] at failed
      cases failed
  | .tuple span elements, value, places, failed => by
      have here : Places span := places _ List.mem_cons_self
      cases value with
      | tuple values =>
          rw [Pattern.targets] at failed
          split at failed
          · exact Pattern.targets_all_blame elements values
              (fun node inside => places node (List.mem_cons_of_mem _ inside)) failed
          · cases failed
            exact ⟨span, rfl, here⟩
      | _ =>
          rw [Pattern.targets] at failed
          · cases failed
            exact ⟨span, rfl, here⟩
          · exact nofun

theorem Pattern.targets_all_blame {Places : Span → Prop} {error : ScriptError} :
    ∀ (patterns : List Pattern) (values : List Value),
    (∀ node ∈ Pattern.nodesAll patterns, Places node.span) →
    Pattern.targetsAll patterns values = .error error → (Stop.error error).Blames Places
  | [], values, _, failed => by
      rw [Pattern.targetsAll] at failed
      · cases failed
      · exact nofun
  | pattern :: patterns, [], _, failed => by
      rw [Pattern.targetsAll] at failed
      · cases failed
      · exact nofun
  | pattern :: patterns, value :: values, places, failed => by
      obtain ⟨first, others⟩ := List.forall_mem_append.1 places
      rw [Pattern.targetsAll] at failed
      cases found : pattern.targets value with
      | error other =>
          rw [found] at failed
          cases failed
          exact Pattern.targets_blame pattern value first found
      | ok targets =>
          rw [found] at failed
          cases othersFound : Pattern.targetsAll patterns values with
          | error other =>
              rw [othersFound] at failed
              cases failed
              exact Pattern.targets_all_blame patterns values others othersFound
          | ok otherTargets =>
              rw [othersFound] at failed
              cases failed

end

namespace Store

variable {Places : Span → Prop} {store : Store} {error : ScriptError}

theorem check_declared_blames {seen : List String} {leaves : List (Span × String)}
    (places : ∀ leaf ∈ leaves, Places leaf.1)
    (failed : store.checkDeclared seen leaves = .error error) :
    (Stop.error error).Blames Places := by
  induction leaves generalizing seen with
  | nil => cases failed
  | cons leaf leaves induction =>
      obtain ⟨here, others⟩ := List.forall_mem_cons.1 places
      rw [checkDeclared] at failed
      split at failed
      · cases failed
        exact ⟨leaf.1, rfl, here⟩
      · exact induction others failed

theorem check_assigned_blames {leaves : List (Span × String)}
    (places : ∀ leaf ∈ leaves, Places leaf.1)
    (failed : store.checkAssigned leaves = .error error) :
    (Stop.error error).Blames Places := by
  induction leaves with
  | nil => cases failed
  | cons leaf leaves induction =>
      obtain ⟨here, others⟩ := List.forall_mem_cons.1 places
      rw [checkAssigned] at failed
      split at failed
      · exact induction others failed
      · cases failed
        exact ⟨leaf.1, rfl, here⟩

/-- A plan for the targets of a pattern blames the pattern or a part of it. -/
theorem plan_blames {pattern : Pattern} {value : Value}
    {check : List (Span × String) → Except ScriptError Unit}
    (places : ∀ node ∈ pattern.nodes, Places node.span)
    (checked : ∀ leaves error, (∀ leaf ∈ leaves, Places leaf.1) →
      check leaves = .error error → (Stop.error error).Blames Places)
    (failed : (do
      let targets ← pattern.targets value
      check pattern.leaves
      return targets.map Target.binding) = .error error) :
    (Stop.error error).Blames Places := by
  cases planned : pattern.targets value with
  | error other =>
      rw [planned] at failed
      cases failed
      exact pattern.targets_blame value places planned
  | ok targets =>
      rw [planned] at failed
      cases outcome : check pattern.leaves with
      | error other =>
          simp only [bind, Except.bind, outcome] at failed
          cases failed
          exact checked pattern.leaves error (pattern.leaves_at places) outcome
      | ok _ =>
          simp only [bind, Except.bind, outcome] at failed
          cases failed

end Store

section Places

variable {Places : Span → Prop}

theorem accounts_member {span : Span} {target : Value} (index : Nat) (place : Places span)
    (good : target.Sited Places) :
    Accounts Places (Value.Sited Places) (Value.Sited Places) (member span target index) := by
  apply accounts_plain (plain_member span target index)
    (keeps_member (sited_class Places) span index good)
  intro machine stop stopped
  unfold member at stopped
  split at stopped
  · split at stopped
    · cases stopped
    · cases stopped
      exact ⟨span, rfl, place⟩
  · cases stopped
    exact ⟨span, rfl, place⟩

theorem accounts_make_closure {name : Option String} {parameters : List String} {body : Block}
    (good : ∀ identity frame, (Value.function (.closure
      ⟨identity, name, parameters, body, frame⟩)).Sited Places) :
    Accounts Places (Value.Sited Places) (Value.Sited Places)
      (makeClosure name parameters body) := by
  apply accounts_plain (plain_make_closure name parameters body) (keeps_make_closure good)
  intro machine stop stopped
  cases stopped

/-- Parameters are bound without fail, for they are distinct and the frame is new. -/
theorem accounts_call (context : Context) {span : Span} {closure : Closure}
    {arguments : List Value} {body : Evaluation Value} (place : Places span)
    (closureGood : (Value.function (.closure closure)).Sited Places)
    (good : ∀ value ∈ arguments, value.Sited Places)
    (accounts : Accounts Places (Value.Sited Places) (Value.Sited Places) body) :
    Accounts Places (Value.Sited Places) (Value.Sited Places)
      (inCall context span closure arguments body) := by
  rw [in_call_eq]
  apply accounts_bind (accounts_admit_call context place)
  intro _ _
  have kept := keeps_bind (keeps_declare_parameters closure.parameters good) fun _ _ => accounts.1
  refine ⟨keeps_restoring _ _ _ kept, fun machine holds noted => ?_⟩
  have distinct := (Value.sited_closure.1 closureGood).1
  rw [run_restoring, enteringCall,
    run_bind_ok (run_declare_parameters_entering distinct arguments _ _ 1 machine)]
  refine accounts.2 _ (Store.holds_add_all (Store.holds_enter holds _ _) ?_) noted
  exact fun binding inside => good _ (List.of_mem_zip inside).2

/-- Evaluation of nodes at given places blames them whenever it stops. -/
theorem blame_correspondence (Places : Span → Prop) (context : Context) :
    Correspondence context context 0 (Node.Sited Places) (Value.Sited Places)
      (fun _ _ post body _ => Accounts Places (Value.Sited Places) post body) where
  pure := accounts_pure
  bind := accounts_bind
  widen accounts := accounts
  outOfFuel _ := accounts_out_of_fuel
  failExpression allowed := accounts_fail _ allowed.1
  literal := (sited_class Places).literal
  nothing := (sited_class Places).nothing
  bool := (sited_class Places).bool
  tuple := (sited_class Places).tuple.2
  lookup allowed := accounts_lookup _ allowed.1
  binary allowed strict left right :=
    accounts_operator allowed.1 (BinaryOperator.apply_faults strict _ _ _) fun _ =>
      (sited_class Places).binary left right
  unary allowed good :=
    accounts_operator allowed.1 (UnaryOperator.apply_faults _ _) fun _ =>
      (sited_class Places).unary good
  member allowed good := accounts_member _ allowed.1 good
  assign {span name _ _} allowed good := by
    have kept := keeps_assign span name good
    rw [assign_eq] at kept ⊢
    apply accounts_update_store kept
    intro store error failed
    split at failed
    · cases failed
    · cases failed
      exact ⟨span, rfl, allowed.1⟩
  function every := accounts_make_closure fun _ _ => (sited_class Places).function every
  native good := by
    apply accounts_plain (plain_call_native _ _)
      ((preservation_correspondence (sited_class Places) context).native good)
    intro machine stop stopped
    rw [run_call_native] at stopped
    cases stopped
  closureBody := (sited_class Places).closureBody
  call allowed closureGood good _ accounts :=
    accounts_call context allowed.1 closureGood good accounts
  inScope accounts := by
    rw [in_scope_eq_restoring]
    exact accounts_restoring _ _ _ accounts
  checkpointExpression allowed := accounts_checkpoint context _ allowed.1
  checkpointStatement allowed := accounts_checkpoint context _ allowed.1
  declarePattern {span pattern tree value} every good := by
    have kept := keeps_declare_pattern (sited_class Places) pattern good
    rw [declare_pattern_eq] at kept ⊢
    apply accounts_update_store kept
    intro store error failed
    apply Store.plan_blames _ (fun _ _ => Store.check_declared_blames) failed
    intro node inside
    apply And.left (every node _)
    simp [inside]
  assignPattern {span pattern tree value} every good := by
    have kept := keeps_assign_pattern (sited_class Places) pattern good
    rw [assign_pattern_eq] at kept ⊢
    apply accounts_update_store kept
    intro store error failed
    apply Store.plan_blames _ (fun _ _ => Store.check_assigned_blames) failed
    intro node inside
    apply And.left (every node _)
    simp [inside]
  define every := accounts_make_closure fun _ _ => (sited_class Places).define every
  declare {span name _ _ _} allowed good := by
    have kept := keeps_declare_at (some span) name good
    rw [Evaluation.declare]
    rw [declare_at_eq] at kept ⊢
    apply accounts_update_store kept
    intro store error failed
    split at failed
    · cases failed
      exact ⟨span, rfl, allowed.1⟩
    · cases failed

/-- The checkpoint of the first statement replaces whatever was noted before. -/
theorem run_program_from_place (context : Context) (fuel : Nat) (statement : Statement)
    (statements : List Statement) (value : Value) (machine : Machine) :
    (executeProgram context (fuel + 1) (statement :: statements) value).run machine =
      (executeProgram context (fuel + 1) (statement :: statements) value).run
        { machine with lastSpan := some statement.span } := by
  have same : (checkpoint context statement.kind statement.span).run machine =
      (checkpoint context statement.kind statement.span).run
        { machine with lastSpan := some statement.span } := by
    rw [run_checkpoint, run_checkpoint]
    rfl
  rw [executeProgram, execute_eq_checkpoint, bind_assoc, run_bind, run_bind, same]

/-- A program on a machine whose functions are made from nodes at given places. -/
theorem Machine.run_sited {machine : Machine} {program : Program}
    (holds : machine.store.Holds (Value.Sited Places)) (every : program.Every (Node.Sited Places))
    (context : Context) (fuel : Nat) :
    (machine.run context fuel program).2.store.Holds (Value.Sited Places) ∧
      ∀ stop, (machine.run context fuel program).1 = .error stop → stop.Blames Places := by
  have accounts := (blame_correspondence Places context).execute_program_related fuel
    program.statements .nothing every.statements (sited_class Places).nothing
  rw [Machine.run, run_guarded]
  refine ⟨Store.holds_of_same_frames rfl (accounts.1 machine.readied holds).1, ?_⟩
  intro stop stopped
  cases form : program.statements with
  | nil =>
      rw [form] at stopped
      cases stopped
  | cons statement statements =>
      have place : Places statement.span :=
        (every.statements statement (by rw [form]; exact List.mem_cons_self)).self.1
      cases fuel with
      | zero =>
          rw [form, executeProgram, execute] at stopped
          cases stopped
          trivial
      | succ fuel =>
          rw [form, run_program_from_place] at stopped
          rw [form] at accounts
          exact (accounts.2 { machine.readied with lastSpan := some statement.span } holds
            ⟨statement.span, rfl, place⟩).2 stop stopped

end Places

/-- Programs that were read from source text ran one after another on a machine that was
fresh; the latest comes first. -/
inductive Machine.Reached : List Program → Machine → Prop where
  | fresh : Reached [] .initial
  | ran {programs : List Program} {machine : Machine} {source : String} {file : Option String}
      {limits : Limits} {program : Program} (before : Reached programs machine)
      (read : Program.ofSource source file limits = .ok program) (context : Context) (fuel : Nat) :
      Reached (program :: programs) (machine.run context fuel program).2

/-- Where the nodes of some of the programs were read. -/
def Program.Places (programs : List Program) (span : Span) : Prop :=
  ∃ program ∈ programs, ∃ node ∈ program.nodes, node.span = span

theorem Program.every_sited {source : String} {file : Option String} {limits : Limits}
    {program : Program} (read : Program.ofSource source file limits = .ok program)
    (programs : List Program) :
    program.Every (Node.Sited (Program.Places (program :: programs))) := by
  intro node inside
  refine ⟨⟨program, List.mem_cons_self, node, inside, rfl⟩, ?_⟩
  exact Program.of_source_distinct read node inside

theorem Store.initial_sited (Places : Span → Prop) :
    Store.initial.Holds (Value.Sited Places) := by
  intro frame member binding inside
  exact (Store.initial_carries _ frame member binding inside).sited

theorem Store.sited_cons {store : Store} {programs : List Program}
    (holds : store.Holds (Value.Sited (Program.Places programs))) (program : Program) :
    store.Holds (Value.Sited (Program.Places (program :: programs))) := by
  intro frame member binding inside
  apply (holds frame member binding inside).mono
  rintro span ⟨other, found, places⟩
  exact ⟨other, List.mem_cons_of_mem _ found, places⟩

/-- The functions that a store keeps were made from nodes of the programs that ran. -/
theorem Machine.Reached.sited {programs : List Program} {machine : Machine}
    (reached : Machine.Reached programs machine) :
    machine.store.Holds (Value.Sited (Program.Places programs)) := by
  induction reached with
  | fresh => exact Store.initial_sited _
  | ran _ read context fuel before =>
      exact (Machine.run_sited (Store.sited_cons before _) (Program.every_sited read _) context
        fuel).1

/-- Programs that were read from source text never reach what only a broken tree could reach.
Whatever ran before on the machine, an operator without a meaning is never applied, so that the
faults left are those that the host raises on operands; every error lies at a node of one of the
programs, and is therefore not the one without a place that parameters raise if they are not
distinct. Indeed the parameters of all functions that are kept for later programs can be declared in
the frame of a call, whatever the arguments. -/
theorem Machine.run_blames_nodes {programs : List Program} {machine : Machine}
    (reached : Machine.Reached programs machine) {source : String} {file : Option String}
    {limits : Limits} {program : Program} (read : Program.ofSource source file limits = .ok program)
    (context : Context) (fuel : Nat) :
    (∀ fault, (machine.run context fuel program).1 = .error (.fault fault) →
      fault ∈ [Fault.mathDomain, .countBeyondIndex, .textBeyondIndex]) ∧
    (∀ error, (machine.run context fuel program).1 = .error (.error error) →
      ∃ culprit ∈ program :: programs, ∃ node ∈ culprit.nodes, error.span = some node.span) ∧
    (machine.run context fuel program).2.store.Holds fun value =>
      ∀ closure ∈ value.closures, ∀ arguments around,
        ((declareParameters closure.parameters arguments).run (enteringCall closure around)).1 =
          .ok () := by
  have sited := (reached.ran read context fuel).sited
  have blamed := (Machine.run_sited (Store.sited_cons reached.sited program)
    (Program.every_sited read programs) context fuel).2
  refine ⟨fun fault stopped => blamed _ stopped, fun error stopped => ?_, ?_⟩
  · obtain ⟨span, isSpan, culprit, member, node, inside, same⟩ := blamed _ stopped
    exact ⟨culprit, member, node, inside, by rw [isSpan, same]⟩
  · intro frame member binding inside closure held arguments around
    have distinct := (sited frame member binding inside closure held).1
    rw [enteringCall, run_declare_parameters_entering distinct]

/-- The second text calls a function that the first one left behind in a tuple, and the error
lies in the text of the function. -/
theorem kept_function_blamed :
    ∃ first second error,
      Program.ofSource "let kept = (fn(x): x * (1, 2), 3)" none {} = .ok first ∧
      Program.ofSource "kept.0(kept.1)" none {} = .ok second ∧
      ((Machine.initial.run ⟨{}, none, 100⟩ 20 first).2.run ⟨{}, none, 100⟩ 20 second).1 =
        .error (.error error) ∧
      ∃ culprit ∈ [second, first], ∃ node ∈ culprit.nodes, error.span = some node.span := by
  have stops : (match Program.ofSource "let kept = (fn(x): x * (1, 2), 3)" none {},
      Program.ofSource "kept.0(kept.1)" none {} with
    | .ok first, .ok second =>
        match ((Machine.initial.run ⟨{}, none, 100⟩ 20 first).2.run ⟨{}, none, 100⟩ 20 second).1 with
        | .error (.error _) => true
        | _ => false
    | _, _ => false) = true := by decide +kernel
  split at stops
  · rename_i first second readFirst readSecond
    split at stops
    · rename_i error stopped
      refine ⟨first, second, error, readFirst, readSecond, stopped, ?_⟩
      exact (Machine.run_blames_nodes (Machine.Reached.fresh.ran readFirst _ _) readSecond _
        _).2.1 error stopped
    · cases stops
  · cases stops

end LayoutScript
