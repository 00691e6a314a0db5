import LayoutScript.Proofs.Machine.Slots
import LayoutScript.Proofs.Machine.Timeline

/-!
Histories of runs. Whatever programs run one after another on a fresh machine, and however their
runs end, the frames of the store stay a tree below the global frame. The frames that functions
have captured stay in it, and a function is equal to itself alone, wherever it is met.
-/

namespace LayoutScript

open Evaluation

namespace Store

/-- From a frame the way outward leads to the global frame, and comes to no frame twice. -/
def Anchored (store : Store) (frame : FrameId) : Prop :=
  ∃ path, store.Outward frame path ∧ path.Nodup ∧ path.getLast? = some globalFrame

/-- A function that is or is held by a value bound in some frame, or by one of some values. -/
def Meets (store : Store) (values : List Value) (callable : Callable) : Prop :=
  (∃ frame ∈ store.frames, ∃ binding ∈ frame.bindings, callable ∈ binding.2.functions) ∨
    ∃ value ∈ values, callable ∈ value.functions

/-- A store with values around it in which all frames are anchored, the current one and those that
functions have captured among them, and in which functions that are equal are the same function,
with the same parameters, the same body and the same captured frame. -/
structure WellFormed (store : Store) (values : List Value) : Prop where
  tree : ∀ frame < store.frames.size, store.Anchored frame
  current : store.Anchored store.current
  captured : ∀ closure, store.Meets values (.closure closure) →
    closure.frame < store.frames.size ∧ store.Anchored closure.frame
  identified : ∀ first second, store.Meets values first → store.Meets values second →
    (Value.function first).equal (.function second) = true → first = second

/-- In a store that is well formed every search for a name comes to its end. -/
theorem WellFormed.is_forest {store : Store} {values : List Value}
    (wellFormed : store.WellFormed values) : store.IsForest := by
  intro frame inside
  have ⟨path, outward, _⟩ := wellFormed.tree frame inside
  exact ⟨path, outward⟩

end Store

namespace Ledger

variable {ledger : Ledger} {store : Store} {values : List Value}

theorem Describes.anchored (describes : ledger.Describes store) {frame : FrameId}
    (entered : frame < ledger.parents.length) : store.Anchored frame := by
  rw [← describes.size] at entered
  have ⟨path, outward, ends⟩ := describes.outward entered
  exact ⟨path, outward, outward.nodup, ends⟩

theorem Describes.knows (describes : ledger.Describes store)
    (covers : ∀ value ∈ values, ledger.Covers value) {callable : Callable}
    (met : store.Meets values callable) : ledger.Knows callable := by
  cases met with
  | inl bound =>
      have ⟨frame, member, binding, inside, held⟩ := bound
      exact describes.covers frame member binding inside callable held
  | inr around =>
      have ⟨value, member, held⟩ := around
      exact covers value member callable held

theorem Describes.well_formed (describes : ledger.Describes store)
    (covers : ∀ value ∈ values, ledger.Covers value) : store.WellFormed values where
  tree frame inside := describes.anchored (describes.size ▸ inside)
  current := describes.anchored describes.current
  captured closure met := by
    have entered := ledger.captured (describes.knows covers met)
    exact ⟨describes.size ▸ entered, describes.anchored entered⟩
  identified first second firstMet secondMet same := by
    rw [Value.equal, beq_iff_eq] at same
    exact (describes.knows covers firstMet).same (describes.knows covers secondMet) same

/-- A function that has been made has a number below the number of the next one. -/
theorem Describes.made_before (describes : ledger.Describes store) {callable : Callable}
    (known : ledger.Knows callable) : callable.identity ≠ .script store.nextFunction := by
  intro next
  cases callable with
  | closure closure =>
      have ⟨serial, recorded⟩ := List.mem_iff_getElem?.1 known
      have number : Identity.script serial = .script store.nextFunction :=
        (ledger.numbered recorded).symm.trans next
      have inside := (List.getElem?_eq_some_iff.1 recorded).1
      have sameNumber := Identity.script.inj number
      have count := describes.next_function
      omega
  | native native =>
      have ⟨entry, _, isEntry⟩ := known
      have label : entry.native.identity = .script store.nextFunction := by
        rw [← isEntry]
        exact next
      cases label

end Ledger

/-- A run that a host asks for: a program with what does not change during the run, and fuel. -/
structure Turn where
  context : Context
  fuel : Nat
  program : Program

def Turn.outcome (turn : Turn) (machine : Machine) : Except Stop Value × Machine :=
  machine.run turn.context turn.fuel turn.program

namespace Machine

/-- The machine after runs one after another. -/
def afterAll (machine : Machine) : List Turn → Machine
  | [] => machine
  | turn :: turns => (turn.outcome machine).2.afterAll turns

/-- The values that runs one after another give. -/
def results (machine : Machine) : List Turn → List Value
  | [] => []
  | turn :: turns =>
      (turn.outcome machine).1.toOption.toList ++ (turn.outcome machine).2.results turns

/-- A moment of one of the runs one after another, and the context of that run. -/
inductive Passes : Machine → List Turn → Context → Moment → Prop where
  | now {machine turn turns moment}
      (visits : machine.Visits turn.context turn.fuel turn.program moment) :
      Passes machine (turn :: turns) turn.context moment
  | later {machine turn turns context moment}
      (passes : Passes (turn.outcome machine).2 turns context moment) :
      Passes machine (turn :: turns) context moment

end Machine

section Recorded

variable {ledger : Ledger} {machine : Machine}

/-- A run adds to a ledger what is needed to describe the store that it leaves behind. -/
theorem Turn.recorded (turn : Turn) (describes : ledger.Describes machine.store) :
    ∃ late, ledger ≤ late ∧ late.Describes (turn.outcome machine).2.store ∧
      ∀ value ∈ (turn.outcome machine).1.toOption.toList, late.Covers value := by
  have evolves := (Ledger.evolution turn.context).rules.execute_program_related turn.fuel ledger
    turn.program.statements .nothing (fun _ _ _ _ => trivial) (Ledger.covers_scalar trivial)
  have ⟨late, grows, after, given⟩ := evolves machine.readied describes
  have inside := Nat.lt_of_lt_of_le describes.current grows.1.length_le
  have covers : ∀ value ∈ (turn.outcome machine).1.toOption.toList, late.Covers value := by
    rw [Turn.outcome, Machine.run, Machine.run_guarded]
    intro value member
    apply given
    cases result : (executeProgram turn.context turn.fuel turn.program.statements .nothing).run
        machine.readied with
    | mk outcome left =>
        rw [result] at member
        cases outcome with
        | ok found => rw [List.mem_singleton.1 member]
        | error stop => cases member
  exact ⟨late, grows, after.go_to inside, covers⟩

theorem Machine.turns_recorded (turns : List Turn) (describes : ledger.Describes machine.store) :
    ∃ late, ledger ≤ late ∧ late.Describes (machine.afterAll turns).store ∧
      ∀ value ∈ machine.results turns, late.Covers value := by
  induction turns generalizing machine ledger with
  | nil => exact ⟨ledger, le_rfl, describes, List.forall_mem_nil _⟩
  | cons turn turns induction =>
      have ⟨middle, grows, after, covers⟩ := turn.recorded describes
      have ⟨late, further, last, laterCovers⟩ := induction after
      have all : ∀ value ∈ machine.results (turn :: turns), late.Covers value := by
        intro value member
        cases List.mem_append.1 member with
        | inl early => exact (covers value early).later further
        | inr others => exact laterCovers value others
      exact ⟨late, grows.trans further, last, all⟩

/-- At every moment of every run some ledger describes the store. -/
theorem Machine.Passes.recorded {turns : List Turn} {context : Context} {moment : Moment}
    (passes : machine.Passes turns context moment) (describes : ledger.Describes machine.store) :
    ∃ late : Ledger, late.Describes moment.machine.store := by
  induction passes generalizing ledger with
  | @now machine turn _ _ visits =>
      have ⟨late, _, sound⟩ :=
        visits.evolves (Ledger.evolution turn.context) describes fun _ _ => trivial
      exact ⟨late, sound.holds⟩
  | @later machine turn _ _ _ _ induction =>
      have ⟨_, _, after, _⟩ := turn.recorded describes
      exact induction after

/-- What a task adds to a ledger. -/
theorem Moment.recorded (context : Context) (moment : Moment)
    (describes : ledger.Describes moment.machine.store) :
    ∃ late, ledger ≤ late ∧ late.Describes (moment.ending context).2.store ∧
      ∀ values, (moment.ending context).1 = .ok values → ∀ value ∈ values, late.Covers value := by
  have every : moment.task.Every fun _ => True := moment.task.every_node
  exact moment.task.perform_grows (Ledger.evolution context).rules moment.fuel ledger every
    moment.machine describes

end Recorded

section Passes

variable {machine : Machine} {turns : List Turn} {context secondContext : Context}
variable {first second : Moment} {closure other : Closure}

theorem Machine.Passes.begins_after (passes : machine.Passes turns context first) :
    machine.time ≤ first.begins := by
  induction passes with
  | now visits => exact visits.within.1
  | @later machine turn _ _ _ _ induction =>
      have ran : machine.time ≤ (turn.outcome machine).2.time :=
        ascends_execute_program turn.context turn.fuel turn.program.statements .nothing
          machine.readied
      exact ran.trans induction

/-- Functions are made one after the other, in one run or in several. -/
theorem Machine.Passes.makes_apart (one : machine.Passes turns context first)
    (makes : first.Makes context closure) (another : machine.Passes turns secondContext second)
    (makesToo : second.Makes secondContext other) (differ : first ≠ second) :
    Moment.Apart context first secondContext second := by
  induction one with
  | now visits =>
      cases another with
      | now visitsToo =>
          rcases visits.ordered visitsToo with inFirst | inSecond | apart
          · exact (differ (makes.reaches_itself inFirst)).elim
          · exact (differ (makesToo.reaches_itself inSecond).symm).elim
          · exact apart
      | later passes => exact .inl (visits.within.2.trans passes.begins_after)
  | later passes induction =>
      cases another with
      | now visits => exact .inr (visits.within.2.trans passes.begins_after)
      | later passesToo => exact induction makes passesToo differ

end Passes

/-- A moment at which the store is well formed, together with the values that the task gives when
it ends; and ways outward are the same when the task ends as when it begins. -/
structure Moment.WellFormed (context : Context) (moment : Moment) : Prop where
  before : moment.machine.store.WellFormed []
  after : (moment.ending context).2.store.WellFormed ((moment.ending context).1.toOption.getD [])
  still : ∀ frame path, moment.machine.store.Outward frame path →
    (moment.ending context).2.store.Outward frame path

theorem Machine.Passes.well_formed {machine : Machine} {turns : List Turn} {context : Context}
    {moment : Moment} (passes : machine.Passes turns context moment) {ledger : Ledger}
    (describes : ledger.Describes machine.store) : moment.WellFormed context := by
  have ⟨early, earlyDescribes⟩ := passes.recorded describes
  have ⟨late, grows, lateDescribes, given⟩ := moment.recorded context earlyDescribes
  have covers : ∀ value ∈ (moment.ending context).1.toOption.getD [], late.Covers value := by
    cases ended : (moment.ending context).1 with
    | ok values => exact given values ended
    | error stop => exact List.forall_mem_nil _
  exact ⟨earlyDescribes.well_formed (List.forall_mem_nil _), lateDescribes.well_formed covers,
    fun _ _ outward => earlyDescribes.outward_later lateDescribes grows outward⟩

/-- Let programs run one after another on a fresh machine, under whatever limits and hosts, and
let their runs end in whatever way. Then the store is well formed afterwards, together with all the
values that the runs have given; and so it is at every moment of every run, when a task begins and
when it ends. A function that is made is not equal to any that is bound by then, nor to any that is
made at another moment of any of the runs. -/
theorem Machine.histories_well_formed (turns : List Turn) :
    (Machine.initial.afterAll turns).store.WellFormed (Machine.initial.results turns) ∧
    (∀ context moment, Machine.initial.Passes turns context moment → moment.WellFormed context) ∧
    (∀ context moment closure, Machine.initial.Passes turns context moment →
      moment.Makes context closure →
      (∀ callable, moment.machine.store.Meets [] callable →
        (Value.function (.closure closure)).equal (.function callable) = false) ∧
      ∀ otherContext other another, Machine.initial.Passes turns otherContext other →
        other.Makes otherContext another → moment ≠ other →
        (Value.function (.closure closure)).equal (.function (.closure another)) = false) := by
  have start : Ledger.start.Describes Machine.initial.store := Ledger.start_describes
  have ⟨late, _, describes, covers⟩ := Machine.turns_recorded turns start
  refine ⟨describes.well_formed covers, fun _ _ passes => passes.well_formed start, ?_⟩
  intro context moment closure passes makes
  constructor
  · intro callable met
    have ⟨early, earlyDescribes⟩ := passes.recorded start
    have old := earlyDescribes.made_before (earlyDescribes.knows (List.forall_mem_nil _) met)
    rw [Value.equal, beq_eq_false_iff_ne]
    intro same
    exact old (same.symm.trans makes.identity)
  · intro otherContext other another otherPasses otherMakes differ
    rw [Value.equal, beq_eq_false_iff_ne]
    exact makes.identities_differ otherMakes
      (passes.makes_apart makes otherPasses otherMakes differ)

/-- At every moment of every history all searches for a name go along one way outward, and when the
task of the moment has ended they go along the same way. -/
theorem Machine.moments_walk_alike {turns : List Turn} {context : Context} {moment : Moment}
    (passes : Machine.initial.Passes turns context moment) {frame : FrameId}
    (inside : frame < moment.machine.store.frames.size) (name : String) (value : Value) :
    ∃ path, moment.machine.store.WalksAlong frame path name value ∧
      (moment.ending context).2.store.WalksAlong frame path name value := by
  have wellFormed := passes.well_formed Ledger.start_describes
  have ⟨path, outward⟩ := wellFormed.before.is_forest frame inside
  have still := wellFormed.still frame path outward
  exact ⟨path, outward.walks_along name value, still.walks_along name value⟩

/-- A run of a program that evaluates the literal of a function without parameters. -/
def literalTurn : Turn :=
  ⟨⟨{}, none, 100⟩, 3, ⟨default, [.evaluate default (.function default [] (.silent default [])) false]⟩⟩

/-- A run that fails, since it reads a name that is not bound. -/
def failingTurn : Turn :=
  ⟨⟨{}, none, 100⟩, 3, ⟨default, [.evaluate default (.identifier default "missing") false]⟩⟩

/-- The moment at which a machine evaluates the literal. -/
def Machine.literalMoment (machine : Machine) : Moment :=
  ⟨2, .evaluate (.function default [] (.silent default [])), counted default machine.readied⟩

/-- The same literal evaluated twice, with a failing run in between: the two functions have the
same parameters, the same body and the same captured frame, which is anchored, and are not equal. -/
theorem literal_evaluated_twice :
    (failingTurn.outcome (literalTurn.outcome .initial).2).1.toOption.isNone ∧
    ∃ closure other, Machine.initial.results [literalTurn, failingTurn, literalTurn] =
        [.function (.closure closure), .function (.closure other)] ∧
      closure.parameters = other.parameters ∧ closure.body = other.body ∧
      closure.frame = other.frame ∧
      (Machine.initial.afterAll [literalTurn, failingTurn, literalTurn]).store.Anchored
        closure.frame ∧
      (Value.function (.closure closure)).equal (.function (.closure other)) = false := by
  have ⟨wellFormed, _, made⟩ :=
    Machine.histories_well_formed [literalTurn, failingTurn, literalTurn]
  let closure : Closure := ⟨.script 0, none, [], .silent default [], 0⟩
  let other : Closure := ⟨.script 1, none, [], .silent default [], 0⟩
  let between : Machine := (failingTurn.outcome (literalTurn.outcome .initial).2).2
  have passes : Machine.initial.Passes [literalTurn, failingTurn, literalTurn] literalTurn.context
      Machine.initial.literalMoment :=
    .now ⟨_, .here, .single (.expression rfl)⟩
  have passesToo : Machine.initial.Passes [literalTurn, failingTurn, literalTurn]
      literalTurn.context between.literalMoment :=
    .later (.later (.now ⟨_, .here, .single (.expression rfl)⟩))
  have makes : Machine.initial.literalMoment.Makes literalTurn.context closure := .literal rfl
  have makesToo : between.literalMoment.Makes literalTurn.context other := .literal rfl
  have differ : Machine.initial.literalMoment ≠ between.literalMoment := by
    intro same
    have sameTime : 0 = 1 := congrArg Moment.begins same
    cases sameTime
  have apart := (made _ _ closure passes makes).2 _ _ other passesToo makesToo differ
  have around : Machine.initial.results [literalTurn, failingTurn, literalTurn] =
      [.function (.closure closure), .function (.closure other)] := by rfl
  have met : (Machine.initial.afterAll [literalTurn, failingTurn, literalTurn]).store.Meets
      (Machine.initial.results [literalTurn, failingTurn, literalTurn]) (.closure closure) := by
    rw [around]
    exact .inr ⟨_, List.mem_cons_self, List.mem_cons_self⟩
  exact ⟨rfl, closure, other, around, rfl, rfl, rfl, (wellFormed.captured closure met).2, apart⟩

end LayoutScript
