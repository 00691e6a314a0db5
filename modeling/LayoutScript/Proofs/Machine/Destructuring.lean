import LayoutScript.Proofs.Machine.Resolution
import LayoutScript.Proofs.Tree.Layout

/-!
Destructuring. A pattern is bound as a whole or not at all, and which of the two happens is told by
the shapes of pattern and value and by the names that are bound. What was declared reads back as
the value; after an assignment a name holds the part of the value where it stands last.
-/

namespace LayoutScript

open Evaluation

/-- The part of a value that is reached by taking an element of a tuple for each number. -/
def Value.part? (value : Value) : List Nat → Option Value
  | [] => some value
  | index :: path =>
      match value with
      | .tuple elements => elements[index]?.bind fun element => element.part? path
      | _ => none

/-- The part of a pattern that is reached in the same way. -/
def Pattern.part? (pattern : Pattern) : List Nat → Option Pattern
  | [] => some pattern
  | index :: path =>
      match pattern with
      | .tuple _ elements => elements[index]?.bind fun element => element.part? path
      | .identifier _ _ => none

/-- Some tuple of a pattern meets something else than a tuple of its length. -/
def Pattern.Mismatches (pattern : Pattern) (value : Value) : Prop :=
  ∃ path span elements part, pattern.part? path = some (.tuple span elements) ∧
    value.part? path = some part ∧ ∀ values, part = .tuple values → values.length ≠ elements.length

mutual

/-- The names of a pattern in the order of the source, with where they stand. -/
def Pattern.places : Pattern → List (String × List Nat)
  | .identifier _ name => [(name, [])]
  | .tuple _ elements => Pattern.placesFrom 0 elements

def Pattern.placesFrom : Nat → List Pattern → List (String × List Nat)
  | _, [] => []
  | index, pattern :: patterns =>
      pattern.places.map (fun place => (place.1, index :: place.2)) ++
        Pattern.placesFrom (index + 1) patterns

end

/-- Where a name stands last in a pattern. -/
def Pattern.lastPlace? (pattern : Pattern) (name : String) : Option (List Nat) :=
  pattern.places.reverse.lookup name

/-- An expression has a value on a machine, which it leaves alone. -/
def Evaluates (context : Context) (machine : Machine) (expression : Expression)
    (value : Value) : Prop :=
  ∃ enough, ∀ fuel ≥ enough, (evaluate context fuel expression).run machine = (.ok value, machine)

/-- What an assignment makes of a store. Each name of the pattern holds, where it was bound, the
part of the value at its last place; no other slot has changed. -/
structure Assigned (pattern : Pattern) (value : Value) (before after : Store) : Prop where
  current : after.current = before.current
  names : ∀ frame, after.names frame = before.names frame
  holds : ∀ name ∈ pattern.names, ∃ owner path part,
    before.resolve? before.current name = some owner ∧ pattern.lastPlace? name = some path ∧
      value.part? path = some part ∧ after.slot? owner name = some part ∧
      after.lookup? name = some part
  others : ∀ frame name, (name ∈ pattern.names → before.resolve? before.current name ≠ some frame) →
    after.slot? frame name = before.slot? frame name

/-- A run has failed with an error of some kind. -/
def FailsAs (kind : ErrorKind) (run : Except Stop Unit × Machine) : Prop :=
  ∃ error, run.1 = .error (.error error) ∧ error.cause.kind = kind

/-- A binding of a pattern either changes nothing or succeeds. It fails because of the shape of
the value, or else because names are refused. -/
structure AllOrNothing (machine : Machine) (run : Except Stop Unit × Machine)
    (mismatches : Prop) (kind : ErrorKind) (refused : Prop) : Prop where
  untouched : run.1 ≠ .ok () → run.2 = machine
  destructure : FailsAs .destructure run ↔ mismatches
  names : ¬mismatches → (FailsAs kind run ↔ refused)
  succeeds : ¬mismatches → ¬refused → run.1 = .ok ()

/-- An attempt fails, with an error of some kind, if it is refused and only then. -/
inductive Attempt {α : Type} (kind : ErrorKind) (refused : Prop) : Except ScriptError α → Prop where
  | passes (fits : ¬refused) (value : α) : Attempt kind refused (.ok value)
  | fails (wrong : refused) {error : ScriptError} (isKind : error.cause.kind = kind) :
      Attempt kind refused (.error error)

section Attempt

variable {α β : Type} {kind : ErrorKind} {refused more : Prop} {first : Except ScriptError α}

theorem Attempt.congr (attempt : Attempt kind refused first) (same : refused ↔ more) :
    Attempt kind more first := by
  rw [← propext same]
  exact attempt

theorem Attempt.bind {next : α → Except ScriptError β} (attempt : Attempt kind refused first)
    (rest : ∀ value, first = .ok value → Attempt kind more (next value)) :
    Attempt kind (refused ∨ more) (first >>= next) := by
  cases attempt with
  | passes fits value =>
      have later := rest value rfl
      exact later.congr (or_iff_right fits).symm
  | fails wrong isKind => exact .fails (.inl wrong) isKind

theorem Attempt.map (attempt : Attempt kind refused first) (result : α → β) :
    Attempt kind refused (first >>= fun value => pure (result value)) := by
  cases attempt with
  | passes fits value => exact .passes fits (result value)
  | fails wrong isKind => exact .fails wrong isKind

end Attempt

section Shapes

variable {span : Span} {name : String} {elements : List Pattern} {value : Value}

theorem identifier_matches (span : Span) (name : String) (value : Value) :
    ¬(Pattern.identifier span name).Mismatches value := by
  rintro ⟨path, span, elements, part, isTuple, _⟩
  cases path <;> cases isTuple

theorem mismatches_kind (other : ∀ values, value ≠ .tuple values) :
    (Pattern.tuple span elements).Mismatches value :=
  ⟨[], span, elements, value, rfl, rfl, fun values same => absurd same (other values)⟩

/-- Some of the patterns does not fit the value in its place. -/
def Pattern.MismatchesAny (patterns : List Pattern) (values : List Value) : Prop :=
  ∃ (index : Nat) (pattern : Pattern) (value : Value), patterns[index]? = some pattern ∧
    values[index]? = some value ∧ pattern.Mismatches value

theorem mismatches_any_cons {pattern : Pattern} {patterns : List Pattern} {values : List Value} :
    Pattern.MismatchesAny (pattern :: patterns) (value :: values) ↔
      pattern.Mismatches value ∨ Pattern.MismatchesAny patterns values := by
  constructor
  · rintro ⟨index, found, met, isFound, isMet, differs⟩
    cases index with
    | zero =>
        cases isFound
        cases isMet
        exact .inl differs
    | succ index => exact .inr ⟨index, found, met, isFound, isMet, differs⟩
  · rintro (first | ⟨index, found, met, isFound, isMet, differs⟩)
    · exact ⟨0, pattern, value, rfl, rfl, first⟩
    · exact ⟨index + 1, found, met, isFound, isMet, differs⟩

/-- A tuple meets a tuple. -/
theorem mismatches_tuple {values : List Value} :
    (Pattern.tuple span elements).Mismatches (.tuple values) ↔
      values.length ≠ elements.length ∨ Pattern.MismatchesAny elements values := by
  constructor
  · rintro ⟨path, place, inner, part, isTuple, isPart, differs⟩
    cases path with
    | nil =>
        cases isTuple
        cases isPart
        exact .inl (differs values rfl)
    | cons index path =>
        rcases Option.bind_eq_some_iff.1 isTuple with ⟨pattern, found, inPattern⟩
        rcases Option.bind_eq_some_iff.1 isPart with ⟨value, present, inValue⟩
        exact .inr ⟨index, pattern, value, found, present, path, place, inner, part, inPattern,
          inValue, differs⟩
  · rintro (lengths | ⟨index, pattern, value, found, present, path, place, inner, part, inPattern,
      inValue, differs⟩)
    · refine ⟨[], span, elements, .tuple values, rfl, rfl, fun others same => ?_⟩
      cases same
      exact lengths
    · refine ⟨index :: path, place, inner, part, ?_, ?_, differs⟩
      · exact Option.bind_eq_some_iff.2 ⟨pattern, found, inPattern⟩
      · exact Option.bind_eq_some_iff.2 ⟨value, present, inValue⟩

mutual

/-- The parts of a value can be taken if it has the shape of the pattern, and only then. -/
theorem Pattern.targets_attempt : ∀ (pattern : Pattern) (value : Value),
    Attempt .destructure (pattern.Mismatches value) (pattern.targets value)
  | .identifier span name, value => by
      rw [Pattern.targets]
      exact .passes (identifier_matches span name value) _
  | .tuple span elements, value => by
      cases value with
      | tuple values =>
          rw [Pattern.targets]
          split
          · rename_i lengths
            apply (Pattern.targets_all_attempt elements values lengths).congr
            rw [mismatches_tuple, or_iff_right (not_not.2 lengths)]
          · rename_i lengths
            exact .fails (mismatches_tuple.2 (.inl lengths)) rfl
      | _ =>
          rw [Pattern.targets]
          · refine .fails (mismatches_kind ?_) rfl
            intro values same
            cases same
          · intro values same
            cases same

theorem Pattern.targets_all_attempt : ∀ (patterns : List Pattern) (values : List Value),
    values.length = patterns.length →
    Attempt .destructure (Pattern.MismatchesAny patterns values)
      (Pattern.targetsAll patterns values)
  | [], values, _ => by
      rw [Pattern.targetsAll]
      · refine .passes ?_ _
        rintro ⟨index, _, _, found, _⟩
        cases found
      · exact nofun
  | pattern :: patterns, [], lengths => by cases lengths
  | pattern :: patterns, value :: values, lengths => by
      rw [Pattern.targetsAll]
      have first := Pattern.targets_attempt pattern value
      have others := Pattern.targets_all_attempt patterns values (Nat.succ.inj lengths)
      exact (first.bind fun found _ => others.map (found ++ ·)).congr mismatches_any_cons.symm

end

end Shapes

namespace Store

variable {store : Store}

/-- Names can be declared if they are distinct, new to the current frame and not seen before. -/
theorem check_declared_attempt (leaves : List (Span × String)) (seen : List String) :
    Attempt .redeclaration
      (¬(leaves.map Prod.snd).Nodup ∨
        ∃ name ∈ leaves.map Prod.snd, name ∈ seen ∨ name ∈ store.names store.current)
      (store.checkDeclared seen leaves) := by
  induction leaves generalizing seen with
  | nil => exact .passes (by simp) ()
  | cons leaf leaves induction =>
      rw [checkDeclared]
      split
      · rename_i found
        rw [Bool.or_eq_true, List.contains_iff_mem, binds_here_iff] at found
        exact .fails (.inr ⟨leaf.2, by simp, found⟩) rfl
      · rename_i fresh
        rw [Bool.or_eq_true, List.contains_iff_mem, binds_here_iff] at fresh
        apply (induction (leaf.2 :: seen)).congr
        rw [List.map_cons, List.nodup_cons]
        constructor
        · rintro (twice | ⟨name, within, found | found⟩)
          · exact .inl fun distinct => twice distinct.2
          · rcases List.mem_cons.1 found with rfl | found
            · exact .inl fun distinct => distinct.1 within
            · exact .inr ⟨name, List.mem_cons_of_mem _ within, .inl found⟩
          · exact .inr ⟨name, List.mem_cons_of_mem _ within, .inr found⟩
        · rintro (twice | ⟨name, within, found⟩)
          · by_cases again : leaf.2 ∈ leaves.map Prod.snd
            · exact .inr ⟨leaf.2, again, .inl List.mem_cons_self⟩
            · exact .inl fun distinct => twice ⟨again, distinct⟩
          · rcases List.mem_cons.1 within with rfl | within
            · exact absurd found fresh
            · exact .inr ⟨name, within, found.imp_left (List.mem_cons_of_mem _)⟩

/-- Names can be assigned if the chain binds all of them. -/
theorem check_assigned_attempt (leaves : List (Span × String)) :
    Attempt .undefinedVariable
      (∃ name ∈ leaves.map Prod.snd, ∀ frame, store.OnChain frame → name ∉ store.names frame)
      (store.checkAssigned leaves) := by
  induction leaves with
  | nil => exact .passes (by simp) ()
  | cons leaf leaves induction =>
      rw [checkAssigned]
      split
      · rename_i contained
        rcases contains_iff.1 contained with ⟨frame, onChain, bound⟩
        apply induction.congr
        rw [List.map_cons, List.exists_mem_cons_iff, or_iff_right]
        exact fun nowhere => nowhere frame onChain bound
      · rename_i missing
        rw [contains_iff] at missing
        refine .fails ⟨leaf.2, by simp, fun frame onChain bound => ?_⟩ rfl
        exact missing ⟨frame, onChain, bound⟩

end Store

theorem fails_as_error {kind : ErrorKind} {error : ScriptError} {machine : Machine} :
    FailsAs kind (.error (.error error), machine) ↔ error.cause.kind = kind := by
  constructor
  · rintro ⟨other, same, isKind⟩
    cases same
    exact isKind
  · intro isKind
    exact ⟨error, rfl, isKind⟩

theorem fails_as_ok {kind : ErrorKind} {machine : Machine} :
    ¬FailsAs kind (.ok (), machine) := by
  rintro ⟨_, same, _⟩
  cases same

/-- A pattern is bound by a plan that is made from its parts, and its names are checked. -/
theorem all_or_nothing_of_attempts {plan : Store → Except ScriptError Bindings}
    {change : Bindings → Store → Store} {machine : Machine} {kind : ErrorKind}
    {mismatches refused : Prop} {targets : Except ScriptError (List Target)}
    {checked : Except ScriptError Unit}
    (planned : plan machine.store = targets >>= fun found => checked >>= fun _ =>
      pure (found.map Target.binding))
    (shape : Attempt .destructure mismatches targets) (names : Attempt kind refused checked)
    (other : kind ≠ .destructure) :
    AllOrNothing machine ((updateStore plan change).run machine) mismatches kind refused := by
  rw [run_update_store, planned]
  cases shape with
  | @fails wrong error isKind =>
      refine ⟨fun _ => rfl, ?_, fun fits => absurd wrong fits, fun fits => absurd wrong fits⟩
      exact iff_of_true (fails_as_error.2 isKind) wrong
  | passes fits found =>
      cases names with
      | passes accepted done =>
          refine ⟨fun failed => absurd rfl failed, ?_, fun _ => ?_, fun _ _ => rfl⟩
          · exact iff_of_false fails_as_ok fits
          · exact iff_of_false fails_as_ok accepted
      | @fails wrong error isKind =>
          refine ⟨fun _ => rfl, ?_, fun _ => ?_, fun _ accepted => absurd wrong accepted⟩
          · refine iff_of_false (fun failed => other ?_) fits
            exact isKind.symm.trans (fails_as_error.1 failed)
          · exact iff_of_true (fails_as_error.2 isKind) wrong

section Places

variable {value : Value} {targets : List Target}

mutual

/-- What a pattern binds are the parts of the value at its places. -/
theorem Pattern.targets_places : ∀ (pattern : Pattern) {value : Value} {targets : List Target},
    pattern.targets value = .ok targets →
    targets.map (fun target => (target.name, some target.value)) =
      pattern.places.map fun place => (place.1, value.part? place.2)
  | .identifier span name, value, targets, planned => by
      rw [Pattern.targets] at planned
      cases planned
      rw [Pattern.places]
      rfl
  | .tuple span elements, value, targets, planned => by
      cases value with
      | tuple values =>
          rw [Pattern.targets] at planned
          rw [Pattern.places]
          split at planned
          · rename_i sameLength
            exact Pattern.targets_all_places elements [] sameLength planned
          · cases planned
      | _ =>
          rw [Pattern.targets] at planned
          · cases planned
          · intro values same
            cases same

theorem Pattern.targets_all_places : ∀ (patterns : List Pattern) (front : List Value)
    {values : List Value} {targets : List Target}, values.length = patterns.length →
    Pattern.targetsAll patterns values = .ok targets →
    targets.map (fun target => (target.name, some target.value)) =
      (Pattern.placesFrom front.length patterns).map fun place =>
        (place.1, (Value.tuple (front ++ values)).part? place.2)
  | [], front, values, targets, sameLength, planned => by
      rw [Pattern.targetsAll] at planned
      · cases planned
        rw [Pattern.placesFrom]
        rfl
      · intros
        contradiction
  | pattern :: patterns, front, [], targets, sameLength, planned => by
      cases sameLength
  | pattern :: patterns, front, value :: values, targets, sameLength, planned => by
      rw [Pattern.targetsAll] at planned
      rcases except_bind_ok planned with ⟨first, firstPlanned, planned⟩
      rcases except_bind_ok planned with ⟨others, othersPlanned, planned⟩
      cases planned
      have here : (front ++ value :: values)[front.length]? = some value := by simp
      have early := Pattern.targets_places pattern firstPlanned
      have late := Pattern.targets_all_places patterns (front ++ [value]) (Nat.succ.inj sameLength)
        othersPlanned
      rw [List.length_append, List.length_singleton, List.append_assoc] at late
      rw [Pattern.placesFrom, List.map_append, List.map_append, early, late, List.map_map]
      congr 1
      apply List.map_congr_left
      intro place _
      simp only [Function.comp_apply, Value.part?, here, Option.bind_some]

end

mutual

/-- A pattern evaluates to the value that its names hold by parts. -/
theorem Pattern.evaluates_targets {context : Context} {machine : Machine} :
    ∀ (pattern : Pattern) {value : Value} {targets : List Target},
    pattern.targets value = .ok targets →
    (∀ target ∈ targets, machine.store.lookup? target.name = some target.value) →
    Evaluates context machine pattern.asExpression value
  | .identifier span name, value, targets, planned, held => by
      rw [Pattern.targets] at planned
      cases planned
      have found : machine.store.lookup? name = some value := held _ List.mem_cons_self
      refine ⟨1, fun fuel enough => ?_⟩
      rcases Nat.exists_eq_add_of_le' enough with ⟨less, rfl⟩
      rw [Pattern.asExpression, evaluate, run_lookup, found]
  | .tuple span elements, value, targets, planned, held => by
      cases value with
      | tuple values =>
          rw [Pattern.targets] at planned
          split at planned
          · rename_i sameLength
            rcases Pattern.evaluates_all_targets elements sameLength planned held with
              ⟨many, evaluated⟩
            refine ⟨many + 1, fun fuel enough => ?_⟩
            rcases Nat.exists_eq_add_of_le' enough with ⟨less, rfl⟩
            rw [Pattern.asExpression, ← Nat.add_assoc, evaluate,
              run_bind_ok (evaluated (less + many) (Nat.le_add_left _ _)), run_pure]
          · cases planned
      | _ =>
          rw [Pattern.targets] at planned
          · cases planned
          · intro values same
            cases same

theorem Pattern.evaluates_all_targets {context : Context} {machine : Machine} :
    ∀ (patterns : List Pattern) {values : List Value} {targets : List Target},
    values.length = patterns.length → Pattern.targetsAll patterns values = .ok targets →
    (∀ target ∈ targets, machine.store.lookup? target.name = some target.value) →
    ∃ enough, ∀ fuel ≥ enough,
      (evaluateAll context fuel (Pattern.asExpressions patterns)).run machine =
        (.ok values, machine)
  | [], values, targets, sameLength, planned, held => by
      cases List.eq_nil_of_length_eq_zero sameLength
      refine ⟨1, fun fuel enough => ?_⟩
      rcases Nat.exists_eq_add_of_le' enough with ⟨less, rfl⟩
      rw [Pattern.asExpressions, evaluateAll, run_pure]
  | pattern :: patterns, [], targets, sameLength, planned, held => by
      cases sameLength
  | pattern :: patterns, value :: values, targets, sameLength, planned, held => by
      rw [Pattern.targetsAll] at planned
      rcases except_bind_ok planned with ⟨first, firstPlanned, planned⟩
      rcases except_bind_ok planned with ⟨others, othersPlanned, planned⟩
      cases planned
      rcases Pattern.evaluates_targets pattern firstPlanned
        (fun target within => held target (List.mem_append_left _ within)) with ⟨one, early⟩
      rcases Pattern.evaluates_all_targets patterns (Nat.succ.inj sameLength) othersPlanned
        (fun target within => held target (List.mem_append_right _ within)) with ⟨many, late⟩
      refine ⟨max one many + 1, fun fuel enough => ?_⟩
      rcases Nat.exists_eq_add_of_le' enough with ⟨less, rfl⟩
      have forOne : less + max one many ≥ one := by omega
      have forMany : less + max one many ≥ many := by omega
      rw [Pattern.asExpressions, ← Nat.add_assoc, evaluateAll, run_bind_ok (early _ forOne),
        run_bind_ok (late _ forMany), run_pure]

end

theorem lookup_map_values {α β : Type} (convert : α → β) (bindings : List (String × α))
    (name : String) :
    (bindings.map fun binding => (binding.1, convert binding.2)).lookup name =
      (bindings.lookup name).map convert := by
  induction bindings with
  | nil => rfl
  | cons binding bindings induction =>
      rw [List.map_cons, List.lookup_cons, List.lookup_cons, induction]
      split <;> rfl

/-- A name is bound to the part at its last place. -/
theorem lookup_targets {pattern : Pattern} (planned : pattern.targets value = .ok targets)
    (name : String) :
    ((targets.map Target.binding).reverse.lookup name).map some =
      (pattern.lastPlace? name).map value.part? := by
  have places := congrArg List.reverse (pattern.targets_places planned)
  rw [← List.map_reverse, ← List.map_reverse] at places
  rw [Pattern.lastPlace?, ← lookup_map_values, ← lookup_map_values, ← places, ← List.map_reverse,
    List.map_map]
  rfl

/-- Names that are bound once are bound for good. -/
theorem lookup_reverse_distinct {bindings : Bindings} (distinct : (bindings.map Prod.fst).Nodup)
    {binding : String × Value} (within : binding ∈ bindings) :
    bindings.reverse.lookup binding.1 = some binding.2 := by
  rcases List.mem_iff_append.1 within with ⟨before, behind, rfl⟩
  rw [List.map_append, List.map_cons] at distinct
  have apart : binding.1 ∉ behind.map Prod.fst :=
    (List.nodup_cons.1 (List.nodup_append.1 distinct).2.1).1
  refine List.lookup_eq_some_iff.2 ⟨behind.reverse, before.reverse, by simp, ?_⟩
  intro later isLater
  rw [bne_iff_ne]
  intro same
  exact apart (List.mem_map.2 ⟨later, List.mem_reverse.1 isLater, same.symm⟩)

end Places

/-- An update that succeeds has made its change as planned. -/
theorem update_planned {plan : Store → Except ScriptError Bindings}
    {change : Bindings → Store → Store} {machine after : Machine}
    (run : (updateStore plan change).run machine = (.ok (), after)) :
    ∃ planned, plan machine.store = .ok planned ∧ after.store = change planned machine.store := by
  rw [run_update_store] at run
  cases made : plan machine.store with
  | ok planned =>
      rw [made] at run
      cases run
      exact ⟨planned, rfl, rfl⟩
  | error error =>
      rw [made] at run
      cases run

/-- What was declared reads back. -/
theorem declared_evaluates {pattern : Pattern} {value : Value} {machine after : Machine}
    (run : (declarePattern pattern value).run machine = (.ok (), after))
    (inside : machine.store.current < machine.store.frames.size) (context : Context) :
    Evaluates context after pattern.asExpression value := by
  rw [declare_pattern_eq] at run
  rcases update_planned run with ⟨planned, plan, changed⟩
  rcases except_bind_ok plan with ⟨targets, found, plan⟩
  rcases except_bind_ok plan with ⟨_, checked, plan⟩
  cases plan
  have names : (targets.map Target.binding).map Prod.fst = targets.map Target.name := List.map_map
  have distinct : ((targets.map Target.binding).map Prod.fst).Nodup := by
    rw [names, pattern.targets_names found, ← pattern.leaves_names]
    have attempt := machine.store.check_declared_attempt pattern.leaves []
    rw [checked] at attempt
    cases attempt with
    | passes fits => exact not_not.1 fun twice => fits (.inl twice)
  apply pattern.evaluates_targets found
  intro target within
  rw [changed]
  apply Store.lookup_add_all inside
  exact lookup_reverse_distinct distinct (List.mem_map_of_mem within)

theorem assigned_of_plan {pattern : Pattern} {value : Value} {store : Store} {planned : Bindings}
    (plan : store.planAssign pattern value = .ok planned) :
    Assigned pattern value store (Store.assignAll planned store) := by
  rcases except_bind_ok plan with ⟨targets, found, plan⟩
  rcases except_bind_ok plan with ⟨_, checked, plan⟩
  cases plan
  have names : (targets.map Target.binding).map Prod.fst = pattern.names :=
    List.map_map.trans (pattern.targets_names found)
  refine ⟨Store.current_assign_all _ _, Store.names_assign_all _ _, ?_, ?_⟩
  · intro name within
    have contained : store.contains name = true := by
      have attempt := store.check_assigned_attempt pattern.leaves
      rw [checked] at attempt
      cases attempt with
      | passes fits =>
          rw [Store.contains_iff]
          by_contra nowhere
          rw [pattern.leaves_names] at fits
          exact fits ⟨name, within, fun frame onChain bound => nowhere ⟨frame, onChain, bound⟩⟩
    rcases Option.isSome_iff_exists.1 contained with ⟨owner, resolved⟩
    have planned : ∃ part, (targets.map Target.binding).reverse.lookup name = some part := by
      rw [← Option.isSome_iff_exists, List.lookup_isSome_iff]
      rw [← names] at within
      rcases List.mem_map.1 within with ⟨binding, isBinding, isName⟩
      exact ⟨binding, List.mem_reverse.2 isBinding, beq_iff_eq.2 isName.symm⟩
    rcases planned with ⟨part, last⟩
    have place := lookup_targets found name
    rw [last] at place
    rcases Option.map_eq_some_iff.1 place.symm with ⟨path, isLast, isPart⟩
    exact ⟨owner, path, part, resolved, isLast, isPart, Store.slot_assign_all resolved last,
      Store.lookup_assign_all resolved last⟩
  · intro frame name apart
    apply Store.slot_assign_all_other
    rw [names]
    exact apart

/-- One assignment exchanges the values of two names, which may be the same. -/
def Swaps (context : Context) (machine : Machine) (first second : Span × String) : Prop :=
  ∀ (span place : Span) (left right : Value), machine.store.lookup? first.2 = some left →
    machine.store.lookup? second.2 = some right →
    ∃ after enough, (∀ fuel ≥ enough,
      (do
        let value ← evaluate context fuel
          (.tuple place [.identifier second.1 second.2, .identifier first.1 first.2])
        assignPattern
          (.tuple span [.identifier first.1 first.2, .identifier second.1 second.2]) value).run
        machine = (.ok (), after)) ∧
      after.store.lookup? first.2 = some right ∧ after.store.lookup? second.2 = some left

theorem plan_assign_pair {store : Store} {first second : Span × String} {left right : Value}
    (span : Span) (isFirst : store.contains first.2 = true)
    (isSecond : store.contains second.2 = true) :
    store.planAssign (.tuple span [.identifier first.1 first.2, .identifier second.1 second.2])
      (.tuple [left, right]) = .ok [(first.2, left), (second.2, right)] := by
  have targets : (Pattern.tuple span
      [.identifier first.1 first.2, .identifier second.1 second.2]).targets (.tuple [left, right]) =
        .ok [⟨first.2, first.1, left⟩, ⟨second.2, second.1, right⟩] := rfl
  have checked : store.checkAssigned [first, second] = .ok () := by
    rw [Store.checkAssigned, if_pos isFirst, Store.checkAssigned, if_pos isSecond,
      Store.checkAssigned]
  have leaves : (Pattern.tuple span
      [.identifier first.1 first.2, .identifier second.1 second.2]).leaves = [first, second] := rfl
  rw [Store.planAssign, targets, leaves]
  change store.checkAssigned _ >>= _ = _
  rw [checked]
  rfl

/-- The right side is evaluated before the first name is rebound. -/
theorem assignment_swaps (context : Context) (machine : Machine) (first second : Span × String) :
    Swaps context machine first second := by
  intro span place left right isLeft isRight
  rcases Store.resolve_of_lookup isLeft with ⟨firstOwner, firstResolved⟩
  rcases Store.resolve_of_lookup isRight with ⟨secondOwner, secondResolved⟩
  have evaluated : Evaluates context machine
      (.tuple place [.identifier second.1 second.2, .identifier first.1 first.2])
      (.tuple [right, left]) := by
    have targets : (Pattern.tuple place
        [.identifier second.1 second.2, .identifier first.1 first.2]).targets
          (.tuple [right, left]) =
            .ok [⟨second.2, second.1, right⟩, ⟨first.2, first.1, left⟩] := rfl
    apply Pattern.evaluates_targets _ targets
    intro target within
    rcases List.mem_pair.1 within with rfl | rfl
    · exact isRight
    · exact isLeft
  rcases evaluated with ⟨enough, evaluated⟩
  have plan : machine.store.planAssign
      (.tuple span [.identifier first.1 first.2, .identifier second.1 second.2])
      (.tuple [right, left]) = .ok [(first.2, right), (second.2, left)] := by
    apply plan_assign_pair
    · exact Option.isSome_iff_exists.2 ⟨firstOwner, firstResolved⟩
    · exact Option.isSome_iff_exists.2 ⟨secondOwner, secondResolved⟩
  refine ⟨{ machine with
      store := Store.assignAll [(first.2, right), (second.2, left)] machine.store },
    enough, ?_, ?_, ?_⟩
  · intro fuel within
    rw [run_bind_ok (evaluated fuel within), assign_pattern_eq, run_update_store, plan]
  · apply Store.lookup_assign_all firstResolved
    by_cases same : first.2 = second.2
    · have equal : left = right := by
        rw [same, isRight] at isLeft
        exact (Option.some.inj isLeft).symm
      simp [same, equal]
    · have differs : (first.2 == second.2) = false := beq_eq_false_iff_ne.2 same
      simp [List.lookup_cons, differs]
  · apply Store.lookup_assign_all secondResolved
    simp

/-- Destructuring is all or nothing and reads back. A binding that fails leaves the machine as it
was. It fails for the shape if some tuple of the pattern meets something else than a tuple of its
length; otherwise a declaration fails if a name stands twice or is in the current frame, and an
assignment if a name is bound nowhere on the chain. What was declared, in a current frame that
exists, is the value of the pattern as an expression. After an assignment every name holds the
part of the value at its last place, and other slots are unchanged, so that names can be swapped.
Names are stored one after the other, and each step could be refused; behind the checks none is. -/
theorem bind_pattern_all_or_nothing (pattern : Pattern) (value : Value) (machine : Machine) :
    AllOrNothing machine ((declarePattern pattern value).run machine)
        (pattern.Mismatches value) .redeclaration
        (¬pattern.names.Nodup ∨
          ∃ name ∈ pattern.names, name ∈ machine.store.names machine.store.current) ∧
      AllOrNothing machine ((assignPattern pattern value).run machine)
        (pattern.Mismatches value) .undefinedVariable
        (∃ name ∈ pattern.names, ∀ frame, machine.store.OnChain frame →
          name ∉ machine.store.names frame) ∧
      (∀ after, (declarePattern pattern value).run machine = (.ok (), after) →
        machine.store.current < machine.store.frames.size →
        ∀ context, Evaluates context after pattern.asExpression value) ∧
      (∀ after, (assignPattern pattern value).run machine = (.ok (), after) →
        Assigned pattern value machine.store after.store) ∧
      (∀ context first second, Swaps context machine first second) ∧
      (pattern.checkShape value = .ok () →
        (machine.store.checkDeclared [] pattern.leaves = .ok () →
          ((storePattern Evaluation.declare pattern value).run machine).1 = .ok ()) ∧
        (machine.store.checkAssigned pattern.leaves = .ok () →
          ((storePattern assign pattern value).run machine).1 = .ok ())) := by
  have shape := pattern.targets_attempt value
  refine ⟨?_, ?_, ?_, ?_, ?_, fun fits => ⟨fun checked => ?_, fun checked => ?_⟩⟩
  · rw [declare_pattern_eq]
    apply all_or_nothing_of_attempts rfl shape
    · have checked := machine.store.check_declared_attempt pattern.leaves []
      rw [pattern.leaves_names] at checked
      simpa using checked
    · decide
  · rw [assign_pattern_eq]
    apply all_or_nothing_of_attempts rfl shape
    · have checked := machine.store.check_assigned_attempt pattern.leaves
      rw [pattern.leaves_names] at checked
      exact checked
    · decide
  · intro after run inside context
    exact declared_evaluates run inside context
  · intro after run
    rw [assign_pattern_eq] at run
    rcases update_planned run with ⟨planned, plan, changed⟩
    rw [changed]
    exact assigned_of_plan plan
  · intro context first second
    exact assignment_swaps context machine first second
  · exact store_pattern_completes (fun store => store.checkDeclared [])
      (fun _ _ => run_declare_targets) fits checked
  · exact store_pattern_completes Store.checkAssigned (fun _ _ => run_assign_targets) fits checked

/-- Inside a body, with a name of the body and one of the global frame. -/
def insideBody : Machine :=
  .ofStore ⟨#[⟨"global", [("a", .int 1)], none⟩, ⟨"if-body", [("b", .int 2)], some 0⟩], 1, 0⟩

/-- A pattern `((first, second), third)`. -/
def nestedPattern (first second third : String) : Pattern :=
  let span : Span := default
  .tuple span
    [.tuple span [.identifier span first, .identifier span second], .identifier span third]

/-- Without the checks, a name that stands twice stops the storing half way. -/
example :
    ((storePattern Evaluation.declare (nestedPattern "c" "d" "c")
      (.tuple [.tuple [.int 3, .int 4], .int 5])).run insideBody).2.store.names 1 =
        ["d", "c", "b"] := by rfl

/-- The body declares new names of its own, also those of outer frames, and assigns where names are
bound; of the two values for `a` the later one stays. -/
theorem nested_pattern_bound :
    (∃ after, (declarePattern (nestedPattern "c" "d" "a")
        (.tuple [.tuple [.int 3, .int 4], .int 5])).run insideBody = (.ok (), after) ∧
      ∀ context, Evaluates context after (nestedPattern "c" "d" "a").asExpression
        (.tuple [.tuple [.int 3, .int 4], .int 5])) ∧
    (∃ after, (assignPattern (nestedPattern "a" "b" "a")
        (.tuple [.tuple [.int 3, .int 4], .int 5])).run insideBody = (.ok (), after) ∧
      Assigned (nestedPattern "a" "b" "a") (.tuple [.tuple [.int 3, .int 4], .int 5])
        insideBody.store after.store ∧
      after.store.slot? 0 "a" = some (.int 5)) := by
  have declaring := bind_pattern_all_or_nothing (nestedPattern "c" "d" "a")
    (.tuple [.tuple [.int 3, .int 4], .int 5]) insideBody
  have assigning := bind_pattern_all_or_nothing (nestedPattern "a" "b" "a")
    (.tuple [.tuple [.int 3, .int 4], .int 5]) insideBody
  exact ⟨⟨_, rfl, declaring.2.2.1 _ rfl (by decide)⟩,
    ⟨_, rfl, assigning.2.2.2.1 _ rfl, rfl⟩⟩

end LayoutScript
