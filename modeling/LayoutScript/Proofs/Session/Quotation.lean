import LayoutScript.Proofs.Machine.Blame
import LayoutScript.Proofs.Tree.Quotation
import LayoutScript.Session
import Mathlib.Data.List.Nodup

/-!
The lines that errors of a session quote. A session keeps functions of the texts that it ran, so
an error can lie in an earlier text than the one that is run. The line is taken from the text
that is run all the same: it is the right one for errors of that text, and for the others only by
chance.
-/

namespace LayoutScript

/-- A session has run texts, each with a name; the latest comes first. -/
inductive Session.Ran (limits : Limits) : List (String × String) → Session → Prop where
  | start (capacity : Nat) : Ran limits [] (.start limits capacity)
  | execute {texts : List (String × String)} {session : Session} (before : Ran limits texts session)
      (fuel : Nat) (name source : String) :
      Ran limits ((name, source) :: texts) (session.execute fuel source (some name)).2

/-- A range starts in one of the texts and names it. -/
def Span.InTexts (texts : List (String × String)) (span : Span) : Prop :=
  ∃ name source, (name, source) ∈ texts ∧ span.file = some name ∧
    span.start.In (Text.dropReturns source.toList)

theorem Span.InTexts.line_pos {texts : List (String × String)} {span : Span}
    (inTexts : span.InTexts texts) : span.start.line ≠ 0 := by
  rcases inTexts with ⟨_, _, _, _, inText⟩
  exact inText.line_pos

/-- All nodes of a program that is read from a text start in it. -/
theorem Program.every_in_texts {source name : String} {limits : Limits} {program : Program}
    (read : Program.ofSource source (some name) limits = .ok program)
    (texts : List (String × String)) :
    program.Every (Node.Sited (Span.InTexts ((name, source) :: texts))) := by
  intro node inside
  refine ⟨?_, Program.of_source_distinct read node inside⟩
  rcases (Program.of_source_all_from read node inside).start with
    ⟨token, member, sameFile, sameStart⟩
  have origin := (tokenize_origin source (some name)).2.1 token member
  refine ⟨name, source, List.mem_cons_self, ?_, ?_⟩
  · rw [← sameFile, origin.file]
  · rw [← sameStart]
    exact origin.start

theorem Store.in_texts_cons {store : Store} {texts : List (String × String)}
    (holds : store.Holds (Value.Sited (Span.InTexts texts))) (text : String × String) :
    store.Holds (Value.Sited (Span.InTexts (text :: texts))) := by
  intro frame member binding inside
  apply (holds frame member binding inside).mono
  rintro span ⟨name, source, found, place⟩
  exact ⟨name, source, List.mem_cons_of_mem _ found, place⟩

/-- Running a text on a machine whose functions come from some texts: functions still do, and an
error lies in one of the texts but quotes the text that is run. -/
theorem Machine.run_source_quotes {machine : Machine} {texts : List (String × String)}
    (holds : machine.store.Holds (Value.Sited (Span.InTexts texts))) (limits : Limits)
    (capacity fuel : Nat) (name source : String) :
    (machine.runSource limits capacity fuel source (some name)).2.store.Holds
      (Value.Sited (Span.InTexts ((name, source) :: texts))) ∧
    ∀ error, (machine.runSource limits capacity fuel source (some name)).1 = .error (.error error) →
      ∃ span, error.span = some span ∧ span.InTexts ((name, source) :: texts) ∧
        error.sourceLine = (sourceLines source)[span.start.line - 1]? := by
  have wider := Store.in_texts_cons holds (name, source)
  unfold Machine.runSource
  cases read : Program.ofSource source (some name) limits with
  | error halt =>
      refine ⟨wider, fun error fails => ?_⟩
      cases halt with
      | outOfFuel => cases fails
      | error found =>
          cases fails
          rcases (Program.of_source_error_origin read).place with
            ⟨span, isSpan, inFile, inText, quoted⟩
          exact ⟨span, isSpan, ⟨name, source, List.mem_cons_self, inFile, inText⟩, quoted⟩
  | ok program =>
      have sited := Machine.run_sited wider (Program.every_in_texts read texts)
        ⟨limits, none, capacity⟩ fuel
      cases run : machine.run ⟨limits, none, capacity⟩ fuel program with
      | mk result after =>
          rw [run] at sited
          dsimp only
          rw [run]
          cases result with
          | ok value => exact ⟨sited.1, fun error fails => by cases fails⟩
          | error stop =>
              refine ⟨sited.1, fun error fails => ?_⟩
              cases stop with
              | fault fault => cases fails
              | outOfFuel => cases fails
              | error found =>
                  cases fails
                  rcases sited.2 _ rfl with ⟨span, located, place⟩
                  rw [located]
                  have attached := @ScriptError.located_attach found.cause span place.line_pos
                  exact ⟨span, rfl, place, congrArg ScriptError.sourceLine (attached _)⟩

namespace Session

variable {limits : Limits} {texts : List (String × String)} {session : Session}

/-- The functions that a session keeps come from the texts that it ran. -/
theorem Ran.sited (ran : Session.Ran limits texts session) :
    session.machine.store.Holds (Value.Sited (Span.InTexts texts)) := by
  induction ran with
  | start => exact Store.initial_sited _
  | @execute texts session _ fuel name source induction =>
      have after := (Machine.run_source_quotes induction session.limits session.callCapacity fuel
        name source).1
      unfold Session.execute
      split
      · exact Store.in_texts_cons induction (name, source)
      · exact after

/-- An error of a session lies in a text that it ran and quotes the text that is run. -/
theorem Ran.execute_quotes (ran : Session.Ran limits texts session) {fuel : Nat}
    {name source : String} {error : ScriptError}
    (fails : (session.execute fuel source (some name)).1 = .error (.error error)) :
    ∃ span, error.span = some span ∧ span.InTexts ((name, source) :: texts) ∧
      error.sourceLine = (sourceLines source)[span.start.line - 1]? := by
  unfold Session.execute at fails
  split at fails
  · cases fails
  · exact (Machine.run_source_quotes ran.sited session.limits session.callCapacity fuel name
      source).2 error fails

end Session

/-- Texts in which only line feeds end lines are run in a session, each under a name of its own.
If an error has a place and quotes a line, its place is in the text of the name that it has, but
the line is the one with that number of the text that is run. So it is the right line for an
error of the text that is run; for an error in a function of an earlier text it is the right one
only if both texts have the same line there. -/
theorem Session.execute_quotes_run_text {limits : Limits} {texts : List (String × String)}
    {session : Session} (ran : Session.Ran limits texts session) (fuel : Nat) {name source : String}
    (distinct : (((name, source) :: texts).map Prod.fst).Nodup)
    (feeds : ∀ text ∈ (name, source) :: texts, Text.FeedsOnly text.2.toList)
    {error : ScriptError} {span : Span} {quoted : String}
    (fails : (session.execute fuel source (some name)).1 = .error (.error error))
    (isSpan : error.span = some span) (isQuoted : error.sourceLine = some quoted) :
    ∃ origin text line, span.file = some origin ∧ (origin, text) ∈ (name, source) :: texts ∧
      (∀ other, (origin, other) ∈ (name, source) :: texts → other = text) ∧
      (List.splitOn '\n' text.toList)[span.start.line - 1]? = some line ∧
      (List.splitOn '\n' source.toList)[span.start.line - 1]? = some quoted.toList ∧
      (origin = name → quoted.toList = line) := by
  rcases ran.execute_quotes fails with
    ⟨place, isPlace, ⟨origin, text, member, inFile, inText⟩, line⟩
  rw [isSpan] at isPlace
  cases isPlace
  have same (other : String) (found : (origin, other) ∈ (name, source) :: texts) : other = text :=
    (Prod.mk.inj (List.inj_on_of_nodup_map distinct found member rfl)).2
  rw [Text.drop_returns_of_none (feeds _ member).no_return] at inText
  rcases inText with ⟨front, back, parts, isStart⟩
  rcases Position.line_at front back with ⟨right, atLine, _⟩
  rw [← isStart, ← parts] at atLine
  have ownFeeds := feeds _ List.mem_cons_self
  rw [line, sourceLines, Text.drop_returns_of_none ownFeeds.no_return] at isQuoted
  have run := Text.lines_split_on ownFeeds isQuoted
  refine ⟨origin, text, right, inFile, member, same, atLine, run, ?_⟩
  rintro rfl
  rw [← same source List.mem_cons_self, run] at atLine
  exact Option.some.inj atLine

/-- The second text calls a function of the first one, whose second line divides by zero; what is
quoted is the second line of the second text. -/
theorem earlier_function_misquoted :
    ∃ error span line,
      (((Session.start {} 100).execute 20 "fn f():\n    1 / 0\n" (some "a.boba")).2.execute 20
        "let x = 1\nf()" (some "b.boba")).1 = .error (.error error) ∧
      error.span = some span ∧ error.sourceLine = some "f()" ∧ span.file = some "a.boba" ∧
      (List.splitOn '\n' "fn f():\n    1 / 0\n".toList)[span.start.line - 1]? = some line ∧
      line = "    1 / 0".toList := by
  have evaluated : (match (((Session.start {} 100).execute 20 "fn f():\n    1 / 0\n"
        (some "a.boba")).2.execute 20 "let x = 1\nf()" (some "b.boba")).1 with
      | .error (.error error) =>
          (error.span.map fun span => (span.file, span.start), error.sourceLine)
      | .error (.fault _) | .error .outOfFuel | .ok _ => (none, none)) =
        (some (some "a.boba", ⟨2, 5, 12⟩), some "f()") := by decide +kernel
  split at evaluated
  · rename_i error fails
    rcases Prod.mk.inj evaluated with ⟨place, isQuoted⟩
    rcases Option.map_eq_some_iff.1 place with ⟨span, isSpan, located⟩
    rcases Prod.mk.inj located with ⟨isFile, isStart⟩
    rcases Session.execute_quotes_run_text ((Session.Ran.start 100).execute 20 "a.boba" _) 20 (by decide)
      (by decide +kernel) fails isSpan isQuoted with
      ⟨origin, text, line, inFile, _, unique, found, _⟩
    rw [isFile] at inFile
    cases inFile
    rw [← unique "fn f():\n    1 / 0\n" (by simp), isStart] at found
    refine ⟨error, span, line, fails, isSpan, isQuoted, isFile, by rw [isStart, found], ?_⟩
    have whole : some "    1 / 0".toList = some line := by
      rw [← found]
      decide +kernel
    exact (Option.some.inj whole).symm
  all_goals cases evaluated

end LayoutScript
