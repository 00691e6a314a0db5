import LayoutScript.Proofs.Tree.Brackets
import LayoutScript.Proofs.Tree.Buffer
import LayoutScript.Proofs.Tree.Nesting

/-!
A feed and a buffer that stand at the same token. The buffer has pulled the tokens up to there, all
of them are in its range, and both kinds of steps lead to the same token again. A reader from the
buffer refines a reader from the feed if it does the same and needs no more than some number of
calls at once.
-/

namespace LayoutScript

/-- All tokens, and the end of input behind them. -/
def closedBy (file : Option String) (all : List Token) : List Token :=
  all ++ [Feed.endBehind all file]

/-- The tokens of a buffer come from a list of tokens, and the end of input is the last of them. -/
structure Stored (all : List Token) (file : Option String) (tokens stream : List Token) :
    Prop where
  parts : tokens ++ stream = all ∨ tokens = closedBy file all ∧ stream = []
  unfinished : ∀ token ∈ tokens.dropLast, token.kind ≠ .endOfInput

section Storing

variable {all tokens stream : List Token} {file : Option String} {index : Nat}

theorem Stored.is_front (stored : Stored all file tokens stream) :
    tokens <+: closedBy file all := by
  rcases stored.parts with rfl | ⟨rfl, _⟩
  · rw [closedBy, List.append_assoc]
    exact List.prefix_append tokens _
  · exact List.prefix_rfl

theorem Stored.get (stored : Stored all file tokens stream) (within : index < tokens.length) :
    tokens[index]? = (closedBy file all)[index]? := by
  obtain ⟨others, whole⟩ := stored.is_front
  rw [← whole, List.getElem?_append_left within]

/-- Where pulling goes on, the input has not ended. -/
theorem not_ended_of_not_served (more : ¬ Buffer.served tokens index = true) :
    ∀ token, tokens.getLast? = some token → token.kind ≠ .endOfInput := by
  intro token isLast isEnd
  apply more
  simp [Buffer.served, isLast, isEnd]

/-- Where an index is not buffered, the input has ended. -/
theorem ended_of_served (served : Buffer.served tokens index = true)
    (beyond : tokens.length ≤ index) :
    ∃ token, tokens.getLast? = some token ∧ token.kind = .endOfInput := by
  have outside : ¬ index < tokens.length := by omega
  simpa [Buffer.served, outside, Option.any_eq_true] using served

theorem Stored.open_append (stored : Stored all file tokens stream)
    (more : ¬ Buffer.served tokens index = true) (token : Token) :
    ∀ token' ∈ (tokens ++ [token]).dropLast, token'.kind ≠ .endOfInput := by
  rw [List.dropLast_concat]
  intro token' member
  rcases List.eq_nil_or_concat tokens with rfl | ⟨others, last, rfl⟩
  · cases member
  · rw [List.concat_eq_append] at stored more member
    rcases List.mem_append.1 member with earlier | isLast
    · exact stored.unfinished token' (by rwa [List.dropLast_concat])
    · cases List.mem_singleton.1 isLast
      exact not_ended_of_not_served more token' List.getLast?_concat

/-- Pulling stops when an index is buffered or the input has ended. -/
theorem Stored.pull (stored : Stored all file tokens stream) (index : Nat) :
    Stored all file (Buffer.pull file index tokens stream).1
        (Buffer.pull file index tokens stream).2 ∧
      tokens <+: (Buffer.pull file index tokens stream).1 ∧
      Buffer.served (Buffer.pull file index tokens stream).1 index = true := by
  induction stream generalizing tokens with
  | nil =>
      rw [Buffer.pull]
      by_cases enough : Buffer.served tokens index = true
      · rw [if_pos enough]
        exact ⟨stored, List.prefix_rfl, enough⟩
      · rw [if_neg enough]
        rcases stored.parts with isAll | ⟨isWhole, _⟩
        · rw [List.append_nil] at isAll
          subst isAll
          refine ⟨⟨.inr ⟨rfl, rfl⟩, stored.open_append enough _⟩, List.prefix_append _ _, ?_⟩
          simp [Buffer.served, Feed.endBehind]
        · refine absurd rfl (not_ended_of_not_served enough (Feed.endBehind all file) ?_)
          rw [isWhole, closedBy, List.getLast?_concat]
  | cons token stream induction =>
      rw [Buffer.pull]
      by_cases enough : Buffer.served tokens index = true
      · rw [if_pos enough]
        exact ⟨stored, List.prefix_rfl, enough⟩
      · rw [if_neg enough]
        rcases stored.parts with isAll | ⟨_, isEmpty⟩
        · have further : Stored all file (tokens ++ [token]) stream :=
            ⟨.inl (by rw [← isAll, List.append_assoc]; rfl), stored.open_append enough token⟩
          obtain ⟨stored, front, served⟩ := induction further
          exact ⟨stored, (List.prefix_append _ _).trans front, served⟩
        · cases isEmpty

end Storing

section Feeds

variable {feed : Feed}

/-- The end of input is never taken. -/
theorem Feed.advance_at_end {token : Token} (isCurrent : feed.current = .ok token)
    (isEnd : token.kind = .endOfInput) : feed.advance = feed := by
  obtain ⟨previous, rest, ending⟩ := feed
  cases rest with
  | nil => rfl
  | cons first rest =>
      cases isCurrent
      simp only [Feed.advance, if_pos isEnd]

/-- Nothing is behind the end of input. -/
theorem Feed.second_of_end {token : Token} (isCurrent : feed.current = .ok token)
    (isEnd : token.kind = .endOfInput) : feed.second = .ok token := by
  obtain ⟨previous, rest, ending⟩ := feed
  cases rest with
  | nil => exact isCurrent
  | cons first rest =>
      cases isCurrent
      exact if_pos isEnd

theorem Feed.second_of_next {whole : List Token} {final token next : Token} {index : Nat}
    (ending : feed.ending = .ok final) (ahead : feed.rest ++ [final] = whole.drop index)
    (stands : whole[index]? = some token) (isNext : whole[index + 1]? = some next)
    (notEnd : token.kind ≠ .endOfInput) : feed.second = .ok next := by
  rw [← List.head?_drop, ← ahead] at stands
  rw [← List.head?_drop, ← List.tail_drop, ← ahead] at isNext
  obtain ⟨previous, rest, _⟩ := feed
  cases ending
  match rest with
  | [] => cases isNext
  | first :: rest =>
      cases stands
      rw [Feed.second]
      dsimp only
      rw [if_neg notEnd]
      cases rest with
      | nil =>
          cases isNext
          rfl
      | cons =>
          cases isNext
          rfl

end Feeds

/-- A feed and a buffer stand at the same place in a list of tokens. -/
structure Matches (all : List Token) (feed : Feed) (buffer : Buffer) : Prop where
  stored : Stored all buffer.file buffer.tokens buffer.stream
  ending : feed.ending = .ok (Feed.endBehind all buffer.file)
  rest : feed.rest = all.drop buffer.position
  previous : feed.previous = (all.take buffer.position).getLast?
  within : buffer.position ≤ all.length
  pulled : buffer.position ≤ buffer.tokens.length
  passed : ∀ token ∈ all.take buffer.position, token.kind ≠ .endOfInput

namespace Matches

variable {all : List Token} {feed : Feed} {buffer : Buffer}

theorem proper (matched : Matches all feed buffer) : feed.Proper := by
  intro token isEnding
  rw [matched.ending] at isEnding
  cases isEnding
  rfl

theorem start (tokens : List Token) (file : Option String) :
    Matches tokens (.ofTokens tokens none file) (.ofTokens tokens file) where
  stored := ⟨.inl rfl, fun _ member => nomatch member⟩
  ending := rfl
  rest := rfl
  previous := rfl
  within := Nat.zero_le _
  pulled := Nat.zero_le _
  passed := fun _ member => nomatch member

/-- The tokens ahead, up to the end of input. -/
theorem ahead (matched : Matches all feed buffer) :
    feed.rest ++ [Feed.endBehind all buffer.file] =
      (closedBy buffer.file all).drop buffer.position := by
  rw [closedBy, List.drop_append_of_le_length matched.within, matched.rest]

/-- The current token is the one at the position. -/
theorem current (matched : Matches all feed buffer) :
    ∃ token, feed.current = .ok token ∧
      (closedBy buffer.file all)[buffer.position]? = some token := by
  have ahead := matched.ahead
  rw [← List.head?_drop, ← ahead, Feed.current]
  cases feed.rest with
  | nil => exact ⟨_, matched.ending, rfl⟩
  | cons token rest => exact ⟨token, rfl, rfl⟩

theorem fill (matched : Matches all feed buffer) (index : Nat) :
    Matches all feed (buffer.fill index) ∧
      Buffer.served (buffer.fill index).tokens index = true ∧
      buffer.tokens.length ≤ (buffer.fill index).tokens.length := by
  obtain ⟨stored, front, served⟩ := matched.stored.pull index
  exact ⟨⟨stored, matched.ending, matched.rest, matched.previous, matched.within,
    matched.pulled.trans front.length_le, matched.passed⟩, served, front.length_le⟩

/-- Where the buffer ends at the position, the input has not ended. -/
theorem last_passed (matched : Matches all feed buffer) {token : Token}
    (isLast : buffer.tokens.getLast? = some token)
    (atEnd : buffer.tokens.length ≤ buffer.position) : token.kind ≠ .endOfInput := by
  apply matched.passed
  have tokens : buffer.tokens = all.take buffer.position := by
    rw [List.prefix_iff_eq_take.1 matched.stored.is_front, closedBy,
      Nat.le_antisymm atEnd matched.pulled, List.take_append_of_le_length matched.within]
  rw [← tokens]
  exact List.mem_of_getLast? isLast

/-- A token that was looked at is buffered. -/
theorem in_range (matched : Matches all feed buffer) {index : Nat}
    (served : Buffer.served buffer.tokens index = true) (ahead : buffer.position ≤ index) :
    buffer.position < buffer.tokens.length := by
  -- Otherwise pulling stopped at an end of input that was passed.
  by_contra beyond
  obtain ⟨token, isLast, isEnd⟩ := ended_of_served served (by omega)
  exact matched.last_passed isLast (by omega) isEnd

end Matches

namespace Buffered

variable {all : List Token} {feed : Feed} {buffer : Buffer}

theorem run_fetch {index : Nat} {token : Token} (stored : buffer.tokens[index]? = some token) :
    (fetch index).run buffer = (.ok token, buffer) := by
  change (inRange buffer.tokens[index]?).run buffer = _
  rw [stored]
  rfl

theorem run_peek (offset : Nat) (buffer : Buffer) :
    (peek offset).run buffer =
      (if (buffer.fill (buffer.position + offset)).tokens.length ≤ buffer.position + offset then
        fetch ((buffer.fill (buffer.position + offset)).tokens.length - 1)
      else fetch (buffer.position + offset)).run (buffer.fill (buffer.position + offset)) := rfl

theorem run_current (matched : Matches all feed buffer) :
    ∃ token, feed.current = .ok token ∧
      current.run buffer = (.ok token, buffer.fill buffer.position) := by
  obtain ⟨matched, served, _⟩ := matched.fill buffer.position
  obtain ⟨token, isCurrent, stands⟩ := matched.current
  have within := matched.in_range served (Nat.le_refl _)
  refine ⟨token, isCurrent, ?_⟩
  have found := (matched.stored.get within).trans stands
  rw [current, run_peek, Nat.add_zero, if_neg (by rw [Nat.not_le]; exact within)]
  exact run_fetch found

theorem run_second (matched : Matches all feed buffer) :
    ∃ token, feed.second = .ok token ∧
      second.run buffer = (.ok token, buffer.fill (buffer.position + 1)) := by
  obtain ⟨matched, served, _⟩ := matched.fill (buffer.position + 1)
  obtain ⟨token, isCurrent, stands⟩ := matched.current
  have within := matched.in_range served (Nat.le_succ _)
  have found := (matched.stored.get within).trans stands
  have unmoved : (buffer.fill (buffer.position + 1)).position = buffer.position := rfl
  rw [unmoved] at within found stands
  rw [second, run_peek]
  by_cases beyond : (buffer.fill (buffer.position + 1)).tokens.length ≤ buffer.position + 1
  · -- Nothing is behind the current token: it ends the input.
    obtain ⟨last, isLast, isEnd⟩ := ended_of_served served beyond
    have place : (buffer.fill (buffer.position + 1)).tokens.length - 1 = buffer.position := by omega
    rw [List.getLast?_eq_getElem?, place, found] at isLast
    cases isLast
    rw [if_pos beyond, place]
    exact ⟨token, Feed.second_of_end isCurrent isEnd, run_fetch found⟩
  · have behind := List.getElem?_eq_getElem (Nat.lt_of_not_le beyond)
    have isNext := (matched.stored.get (Nat.lt_of_not_le beyond)).symm.trans behind
    have inside : (buffer.fill (buffer.position + 1)).tokens.dropLast[buffer.position]? =
        some token := by
      rw [List.getElem?_dropLast, if_pos (by omega), found]
    have notEnd := matched.stored.unfinished token (List.mem_of_getElem? inside)
    rw [if_neg beyond]
    exact ⟨_, Feed.second_of_next matched.ending matched.ahead stands isNext notEnd,
      run_fetch behind⟩

theorem run_bind_ok {α β : Type} {body : Buffered α} {next : α → Buffered β} {value : α}
    {after : Buffer} (run : body.run buffer = (.ok value, after)) :
    (body >>= next).run buffer = (next value).run after := by
  change ExceptT.bindCont next (body.run buffer).1 (body.run buffer).2 = _
  rw [run]
  rfl

theorem run_bind_error {α β : Type} {body : Buffered α} {next : α → Buffered β}
    {fault : Buffer.Fault} {after : Buffer} (run : body.run buffer = (.error fault, after)) :
    (body >>= next).run buffer = (.error fault, after) := by
  change ExceptT.bindCont next (body.run buffer).1 (body.run buffer).2 = _
  rw [run]
  rfl

end Buffered

/-- As many calls are active as before, no more than some number of others were, and nothing is
lost of what was pulled. -/
structure Buffer.Stays (room : Nat) (buffer after : Buffer) : Prop where
  file : after.file = buffer.file
  grows : buffer.tokens.length ≤ after.tokens.length
  active : after.active = buffer.active
  peak : after.peak ≤ max buffer.peak (buffer.active + room)

namespace Buffer.Stays

variable {room other : Nat} {buffer middle after : Buffer}

theorem none (room : Nat) (buffer : Buffer) : Stays room buffer buffer :=
  ⟨rfl, Nat.le_refl _, rfl, Nat.le_max_left _ _⟩

theorem mono (stays : Stays room buffer after) (larger : room ≤ other) :
    Stays other buffer after :=
  { stays with peak := stays.peak.trans (by omega) }

theorem trans (first : Stays room buffer middle) (second : Stays room middle after) :
    Stays room buffer after := by
  refine ⟨second.file.trans first.file, first.grows.trans second.grows,
    second.active.trans first.active, second.peak.trans ?_⟩
  rw [first.active]
  exact max_le first.peak (Nat.le_max_right _ _)

/-- A call needs room for itself. -/
theorem called (stays : Stays room buffer.entered after) :
    Stays (room + 1) buffer after.left := by
  obtain ⟨file, grows, active, peak⟩ := stays
  simp only [entered] at active peak
  exact ⟨file, grows, by simp only [left]; omega, by simp only [left]; omega⟩

end Buffer.Stays

/-- A token was taken before. -/
def Feed.Begun (feed : Feed) : Prop := feed.previous.isSome = true

/-- What a reading from a buffer comes to, seen from a reading from a feed. -/
inductive ComesTo (all : List Token) (feed : Feed) {α : Type} :
    Except Halt (α × Feed) → Except Buffer.Fault α × Buffer → Prop where
  | value {value : α} {behind : Feed} {after : Buffer} (matched : Matches all behind after)
      (begun : feed.Begun → behind.Begun) :
      ComesTo all feed (.ok (value, behind)) (.ok value, after)
  | halt {halt : Halt} {after : Buffer} :
      ComesTo all feed (.error halt) (.error (.halt halt), after)

theorem ComesTo.since {all : List Token} {feed middle : Feed} {α : Type}
    {outcome : Except Halt (α × Feed)} {found : Except Buffer.Fault α × Buffer}
    (comes : ComesTo all middle outcome found) (begun : feed.Begun → middle.Begun) :
    ComesTo all feed outcome found := by
  cases comes with
  | value matched begun' => exact .value matched (begun' ∘ begun)
  | halt => exact .halt

theorem ComesTo.left {all : List Token} {feed : Feed} {α : Type}
    {outcome : Except Halt (α × Feed)} {found : Except Buffer.Fault α × Buffer}
    (comes : ComesTo all feed outcome found) :
    ComesTo all feed outcome (found.1, found.2.left) := by
  cases comes with
  | value matched begun => exact .value { matched with } begun
  | halt => exact .halt

/-- At a buffer, a reader does what a reader from a feed does, with room for some calls. -/
def RefinesAt (all : List Token) (room : Nat) {α : Type} (feed : Feed) (buffer : Buffer)
    (low : Buffered α) (high : Parse α) : Prop :=
  buffer.Stays room (low.run buffer).2 ∧ ComesTo all feed (high.run feed) (low.run buffer)

/-- A reader from a buffer does what a reader from a feed does, wherever the two match. -/
def Refines (all : List Token) (room : Nat) {α : Type} (feed : Feed) (low : Buffered α)
    (high : Parse α) : Prop :=
  ∀ buffer, Matches all feed buffer → RefinesAt all room feed buffer low high

section Rules

variable {all : List Token} {room : Nat} {feed : Feed} {α β : Type}

theorem refines_at_bind {buffer : Buffer} {low : Buffered α} {high : Parse α}
    {next : α → Buffered β} {next' : α → Parse β}
    (start : RefinesAt all room feed buffer low high)
    (rest : ∀ value behind after, high.run feed = .ok (value, behind) →
      (feed.Begun → behind.Begun) → Matches all behind after → buffer.Stays room after →
      RefinesAt all room behind after (next value) (next' value)) :
    RefinesAt all room feed buffer (low >>= next) (high >>= next') := by
  obtain ⟨stays, comes⟩ := start
  rcases runLow : low.run buffer with ⟨outcome, middle⟩
  rw [runLow] at stays comes
  cases runHigh : high.run feed with
  | error halt =>
      rw [runHigh] at comes
      cases comes
      rw [RefinesAt, Buffered.run_bind_error runLow, Parse.run_bind_error runHigh]
      exact ⟨stays, .halt⟩
  | ok found =>
      obtain ⟨value, behind⟩ := found
      rw [runHigh] at comes
      cases comes with
      | value matched begun =>
          rw [RefinesAt, Buffered.run_bind_ok runLow, Parse.run_bind_ok runHigh]
          obtain ⟨further, comes⟩ := rest value behind middle runHigh begun matched stays
          exact ⟨stays.trans further, comes.since begun⟩

theorem refines_bind {low : Buffered α} {high : Parse α} {next : α → Buffered β}
    {next' : α → Parse β} (start : Refines all room feed low high)
    (rest : ∀ value behind, high.run feed = .ok (value, behind) →
      (feed.Begun → behind.Begun) → Refines all room behind (next value) (next' value)) :
    Refines all room feed (low >>= next) (high >>= next') :=
  fun buffer matched => refines_at_bind (start buffer matched)
    fun value behind after run begun matched _ => rest value behind run begun after matched

theorem refines_mono {other : Nat} {low : Buffered α} {high : Parse α}
    (refines : Refines all room feed low high) (larger : room ≤ other) :
    Refines all other feed low high := by
  intro buffer matched
  obtain ⟨stays, comes⟩ := refines buffer matched
  exact ⟨stays.mono larger, comes⟩

/-- Calls are no part of a reading from a feed. -/
theorem refines_at_calling {buffer : Buffer} {low : Buffered α} {high : Parse α}
    (refines : RefinesAt all room feed buffer.entered low high) :
    RefinesAt all (room + 1) feed buffer (Buffered.calling low) high :=
  ⟨refines.1.called, refines.2.left⟩

theorem refines_calling {low : Buffered α} {high : Parse α}
    (refines : Refines all room feed low high) :
    Refines all (room + 1) feed (Buffered.calling low) high :=
  fun buffer matched => refines_at_calling (refines buffer.entered { matched with })

theorem refines_pure (value : α) : Refines all room feed (pure value) (pure value) :=
  fun buffer matched => ⟨.none room buffer, .value matched id⟩

theorem refines_fail (error : ScriptError) :
    Refines all room feed (Buffered.fail error : Buffered α) (Parse.fail error) :=
  fun buffer _ => ⟨.none room buffer, .halt⟩

theorem refines_out_of_fuel :
    Refines all room feed (Buffered.outOfFuel : Buffered α) Parse.outOfFuel :=
  fun buffer _ => ⟨.none room buffer, .halt⟩

theorem refines_ite {condition : Prop} [Decidable condition] {low low' : Buffered α}
    {high high' : Parse α} (whenTrue : condition → Refines all room feed low high)
    (whenFalse : ¬condition → Refines all room feed low' high') :
    Refines all room feed (if condition then low else low')
      (if condition then high else high') := by
  by_cases holds : condition
  · rw [if_pos holds, if_pos holds]
    exact whenTrue holds
  · rw [if_neg holds, if_neg holds]
    exact whenFalse holds

theorem refines_current : Refines all room feed Buffered.current Parse.current := by
  intro buffer matched
  obtain ⟨token, isCurrent, run⟩ := Buffered.run_current matched
  rw [RefinesAt, run, Parse.run_current isCurrent]
  obtain ⟨filled, _, grows⟩ := matched.fill _
  exact ⟨⟨rfl, grows, rfl, Nat.le_max_left _ _⟩, .value filled id⟩

/-- A token that was looked at stays in the buffer. -/
theorem refines_at_after_current {buffer : Buffer} {next : Token → Buffered β}
    {next' : Token → Parse β} (matched : Matches all feed buffer)
    (rest : ∀ token, feed.current = .ok token →
      RefinesAt all room feed (buffer.fill buffer.position) (next token) (next' token)) :
    RefinesAt all room feed buffer (Buffered.current >>= next) (Parse.current >>= next') := by
  obtain ⟨token, isCurrent, run⟩ := Buffered.run_current matched
  obtain ⟨_, _, grows⟩ := matched.fill buffer.position
  obtain ⟨stays, comes⟩ := rest token isCurrent
  rw [RefinesAt, Buffered.run_bind_ok run, Parse.run_bind_ok (Parse.run_current isCurrent)]
  have filled : buffer.Stays room (buffer.fill buffer.position) :=
    ⟨rfl, grows, rfl, Nat.le_max_left _ _⟩
  exact ⟨filled.trans stays, comes⟩

theorem refines_second : Refines all room feed Buffered.second Parse.second := by
  intro buffer matched
  obtain ⟨token, isSecond, run⟩ := Buffered.run_second matched
  have runHigh : Parse.second.run feed = .ok (token, feed) := by
    change (Parse.ofExcept feed.second).run feed = _
    rw [isSecond]
    rfl
  rw [RefinesAt, run, runHigh]
  obtain ⟨filled, _, grows⟩ := matched.fill _
  exact ⟨⟨rfl, grows, rfl, Nat.le_max_left _ _⟩, .value filled id⟩

/-- Only what a reading from a feed does matters. -/
theorem refines_congr {low : Buffered α} {high high' : Parse α}
    (same : high.run feed = high'.run feed) (refines : Refines all room feed low high') :
    Refines all room feed low high := by
  intro buffer matched
  rw [RefinesAt, same]
  exact refines buffer matched

theorem refines_proper {low : Buffered α} {high : Parse α}
    (refines : feed.Proper → Refines all room feed low high) :
    Refines all room feed low high :=
  fun buffer matched => refines matched.proper buffer matched

theorem Matches.moved {buffer : Buffer} {token : Token} {behind : Feed}
    (matched : Matches all feed buffer) (takes : Takes feed token behind)
    (inRange : buffer.position < buffer.tokens.length) : Matches all behind buffer.moved := by
  have rest := matched.rest
  cases takes with
  | front notEnd =>
      have stands : all[buffer.position]? = some token := by
        rw [← List.head?_drop, ← rest]
        rfl
      have further : all.take (buffer.position + 1) = all.take buffer.position ++ [token] := by
        rw [List.take_add_one, stands]
        rfl
      refine ⟨matched.stored, matched.ending, ?_, ?_, ?_, inRange, ?_⟩
      · change _ = all.drop (buffer.position + 1)
        rw [← List.tail_drop, ← rest]
        rfl
      · change _ = (all.take (buffer.position + 1)).getLast?
        rw [further, List.getLast?_concat]
      · exact (List.getElem?_eq_some_iff.1 stands).1
      · change ∀ token ∈ all.take (buffer.position + 1), _
        rw [further, List.forall_mem_append]
        exact ⟨matched.passed, List.forall_mem_singleton.2 notEnd⟩

theorem refines_advance : Refines all room feed Buffered.advance Parse.advance := by
  intro buffer matched
  obtain ⟨token, isCurrent, run⟩ := Buffered.run_current matched
  obtain ⟨filled, served, grows⟩ := matched.fill buffer.position
  have inRange := filled.in_range served (Nat.le_refl _)
  rw [RefinesAt, Buffered.advance, Buffered.run_bind_ok run]
  by_cases isEnd : token.kind = .endOfInput
  · have runHigh : Parse.advance.run feed = .ok (token, feed) := by
      rw [Parse.advance, Parse.run_bind_ok (Parse.run_current isCurrent)]
      change Except.ok (token, feed.advance) = _
      rw [Feed.advance_at_end isCurrent isEnd]
    rw [if_pos isEnd, runHigh]
    exact ⟨⟨rfl, grows, rfl, Nat.le_max_left _ _⟩, .value filled id⟩
  · have takes := Feed.current_takes matched.proper isCurrent isEnd
    rw [if_neg isEnd, takes.run_advance]
    refine ⟨⟨rfl, grows, rfl, Nat.le_max_left _ _⟩, .value (filled.moved takes inRange) fun _ => ?_⟩
    rw [Feed.Begun, takes.previous]
    rfl

/-- The token that was taken last is in range. -/
theorem Matches.last_taken {buffer : Buffer} (matched : Matches all feed buffer) :
    (feed.previous = none ∧ buffer.position = 0) ∨
      ∃ token index, feed.previous = some token ∧ buffer.position = index + 1 ∧
        buffer.tokens[index]? = some token := by
  have previous := matched.previous
  have within := matched.within
  cases place : buffer.position with
  | zero =>
      rw [place] at previous
      exact .inl ⟨previous, rfl⟩
  | succ index =>
      rw [place] at previous within
      have stands : all[index]? = some all[index] := List.getElem?_eq_getElem within
      rw [List.take_add_one, stands, Option.toList_some, List.getLast?_concat] at previous
      refine .inr ⟨_, index, previous, rfl, ?_⟩
      have pulled := matched.pulled
      rw [matched.stored.get (by omega), closedBy, List.getElem?_append_left within, stands]

/-- What is read from the token taken last. -/
theorem refines_taken {token : Token} (last : feed.previous = some token) :
    Refines all room feed Buffered.taken (pure token) := by
  intro buffer matched
  rcases matched.last_taken with ⟨isNone, _⟩ | ⟨found, index, isLast, place, stands⟩
  · rw [isNone] at last
    cases last
  · cases isLast.symm.trans last
    have run : Buffered.taken.run buffer = (.ok token, buffer) := by
      change (Buffered.fetchBefore buffer.position).run buffer = _
      rw [place]
      exact Buffered.run_fetch stands
    rw [RefinesAt, run]
    exact ⟨.none room buffer, .value matched id⟩

theorem refines_previous : Refines all room feed Buffered.previous Parse.lastTaken := by
  intro buffer matched
  rcases matched.last_taken with ⟨isNone, place⟩ | ⟨token, index, isLast, place, _⟩
  · have run : Buffered.previous.run buffer = (.ok none, buffer) := by
      change (if buffer.position = 0 then _ else _ : Buffered (Option Token)).run buffer = _
      rw [if_pos place]
      rfl
    have runHigh : Parse.lastTaken.run feed = .ok (none, feed) := by
      rw [← isNone]
      rfl
    rw [RefinesAt, run, runHigh]
    exact ⟨.none room buffer, .value matched id⟩
  · have refines : Refines all room feed (Buffered.taken >>= fun token => pure (some token))
        (pure token >>= fun token => pure (some token)) :=
      refines_bind (refines_taken isLast) fun value _ _ _ => refines_pure (some value)
    have runHigh : Parse.lastTaken.run feed = .ok (some token, feed) := by
      rw [← isLast]
      rfl
    obtain ⟨stays, comes⟩ := refines buffer matched
    have run : Buffered.previous.run buffer =
        (Buffered.taken >>= fun token => pure (some token)).run buffer := by
      change (if buffer.position = 0 then _ else _ : Buffered (Option Token)).run buffer = _
      rw [if_neg (by omega)]
    rw [RefinesAt, run, runHigh]
    exact ⟨stays, comes⟩

theorem refines_block_closed : Refines all room feed Buffered.blockClosed Parse.blockClosed := by
  rw [Parse.block_closed_eq]
  exact refines_bind refines_previous fun _ _ _ _ => refines_pure _

theorem refines_check (kind : TokenClass) :
    Refines all room feed (Buffered.check kind) (Parse.check kind) :=
  refines_bind refines_current fun _ _ _ _ => refines_pure _

theorem refines_accept (kind : TokenClass) :
    Refines all room feed (Buffered.accept kind) (Parse.accept kind) := by
  apply refines_bind refines_current
  intro token behind _ _
  apply refines_ite
  · intro _
    exact refines_bind refines_advance fun _ _ _ _ => refines_pure _
  · intro _
    exact refines_pure _

theorem refines_accept_open (kind : TokenClass) :
    Refines all room feed (Buffered.acceptOpen kind) (Parse.acceptOpen kind) := by
  apply refines_bind refines_block_closed
  intro closed behind _ _
  apply refines_ite
  · intro _
    exact refines_pure _
  · intro _
    exact refines_accept kind

theorem refines_unexpected (expected : Expectation) :
    Refines all room feed (Buffered.unexpected expected : Buffered α)
      (Parse.unexpected expected) := by
  apply refines_bind refines_current
  intro token behind _ _
  apply refines_ite
  · intro _
    exact refines_fail _
  · intro _
    exact refines_fail _

theorem refines_consume (kind : TokenClass) (expected : Expectation) :
    Refines all room feed (Buffered.consume kind expected) (Parse.consume kind expected) := by
  apply refines_bind refines_current
  intro token behind _ _
  apply refines_ite
  · intro _
    exact refines_advance
  · intro _
    exact refines_unexpected expected

theorem refines_enter (limit depth : Nat) (token : Token) :
    Refines all room feed (Buffered.enter limit depth token) (Parse.enter limit depth token) := by
  unfold Buffered.enter Parse.enter
  apply refines_ite
  · intro _
    exact refines_fail _
  · intro _
    exact refines_pure _

theorem Buffered.run_span_from {buffer : Buffer} (start : Token) {token : Token}
    (stands : buffer.tokens[buffer.position - 1]? = some token) :
    (Buffered.spanFrom start).run buffer = (.ok (start.span.join token.span), buffer) := by
  change (Buffered.fetch (buffer.position - 1) >>= fun last =>
    (pure (start.span.join last.span) : Buffered Span)).run buffer = _
  rw [Buffered.run_bind_ok (Buffered.run_fetch stands)]
  rfl

/-- Behind a token that was taken, a range ends with it. -/
theorem refines_span_from (start : Token) (begun : feed.Begun) :
    Refines all room feed (Buffered.spanFrom start) (Parse.spanFrom start) := by
  intro buffer matched
  rcases matched.last_taken with ⟨isNone, _⟩ | ⟨token, index, isLast, place, stands⟩
  · rw [Feed.Begun, isNone] at begun
    cases begun
  · rw [RefinesAt, Buffered.run_span_from start (by rw [place]; exact stands),
      Parse.run_span_from, isLast]
    exact ⟨.none room buffer, .value matched id⟩

/-- A tree that is made once its range is known. -/
theorem refines_spanned (start : Token) (make : Span → α) (begun : feed.Begun) :
    Refines all room feed (Buffered.spanFrom start >>= fun span => pure (make span))
      (Parse.spanFrom start >>= fun span => pure (make span)) :=
  refines_bind (refines_span_from start begun) fun _ _ _ _ => refines_pure _

theorem refines_statement_end :
    Refines all room feed Buffered.statementEnd Parse.statementEnd := by
  apply refines_proper
  intro proper
  rw [Parse.statement_end_eq]
  apply refines_bind refines_current
  intro token behind run _
  obtain ⟨rfl, isCurrent⟩ := (leads_current proper _ _ run).2
  apply refines_ite
  · intro _
    exact refines_pure _
  · intro _
    apply refines_ite
    · intro _
      have same : (modify Feed.advance : Parse Unit).run behind =
          (Parse.advance >>= fun _ => pure ()).run behind := by
        rw [Parse.advance, bind_assoc, Parse.run_bind_ok (Parse.run_current isCurrent)]
        rfl
      exact refines_congr same (refines_bind refines_advance fun _ _ _ _ => refines_pure ())
    · intro _
      apply refines_bind refines_previous
      intro previous behind _ _
      cases previous with
      | none => exact refines_unexpected _
      | some token =>
          apply refines_ite
          · intro _
            exact refines_pure _
          · intro _
            exact refines_unexpected _

/-- A statement that is made at its end. -/
theorem refines_ended (tree : Statement) :
    Refines all room feed (Buffered.statementEnd >>= fun _ => pure tree)
      (Parse.statementEnd >>= fun _ => pure tree) :=
  refines_bind refines_statement_end fun _ _ _ _ => refines_pure _

/-- Newlines are taken one after the other. -/
theorem skip_newlines_step {token : Token} (proper : feed.Proper)
    (isCurrent : feed.current = .ok token) :
    Parse.skipNewlines.run feed = (Parse.accept .newline >>= fun found =>
      if found.isSome then Parse.skipNewlines else pure ()).run feed := by
  by_cases isNewline : token.kind = .newline
  · have takes := Feed.current_takes proper isCurrent (ne_end_of_eq isNewline (by decide))
    rw [Parse.run_bind_ok (takes.run_accept isNewline)]
    change Except.ok ((), feed.skipNewlines) = Except.ok ((), feed.advance.skipNewlines)
    generalize feed.advance = behind at takes ⊢
    cases takes
    rw [Feed.skipNewlines, Feed.skipNewlinesFrom, if_pos isNewline]
    rfl
  · rw [Parse.run_bind_ok (Parse.run_accept_none isCurrent isNewline),
      Parse.run_skip_newlines isCurrent isNewline]
    rfl

theorem refines_skip_up_to {count : Nat} (enough : feed.rest.length < count) :
    Refines all room feed (Buffered.skipUpTo count) Parse.skipNewlines := by
  induction count generalizing feed with
  | zero => omega
  | succ count induction =>
      intro buffer matched
      have proper := matched.proper
      obtain ⟨token, isCurrent, _⟩ := matched.current
      refine refines_congr (skip_newlines_step proper isCurrent) ?_ buffer matched
      rw [Buffered.skipUpTo]
      apply refines_bind (refines_accept _)
      intro found behind run _
      obtain ⟨rfl, rfl⟩ | ⟨token, rfl, takes, _⟩ := (leads_accept proper (by decide) _ _ run).2
      · exact refines_pure ()
      · rw [takes.rest_eq, List.length_cons] at enough
        exact induction (by omega)

theorem Stored.length_le {tokens stream : List Token} {file : Option String}
    (stored : Stored all file tokens stream) : all.length ≤ tokens.length + stream.length := by
  rcases stored.parts with rfl | ⟨rfl, rfl⟩
  · rw [List.length_append]
  · simp [closedBy]

theorem refines_skip_newlines :
    Refines all room feed Buffered.skipNewlines Parse.skipNewlines := by
  intro buffer matched
  have enough : feed.rest.length < buffer.ahead + 1 := by
    have length := matched.stored.length_le
    rw [matched.rest, List.length_drop, Buffer.ahead]
    omega
  exact refines_skip_up_to enough buffer matched

section Sequences

/-- A call fits where there is room for one more than its body needs. -/
theorem refines_call (room : Nat) {other : Nat} {low : Buffered α} {high : Parse α}
    (more : room < other) (refines : Refines all room feed low high) :
    Refines all other feed (Buffered.calling low) high :=
  refines_mono (refines_calling refines) more

/-- What is read inside is within the limit. -/
theorem refines_after_enter {limit depth : Nat} {token : Token} {next : Unit → Buffered β}
    {next' : Unit → Parse β}
    (rest : depth < limit → Refines all room feed (next ()) (next' ())) :
    Refines all room feed (Buffered.enter limit depth token >>= next)
      (Parse.enter limit depth token >>= next') := by
  apply refines_proper
  intro proper
  apply refines_bind (refines_enter limit depth token)
  intro _ behind run _
  obtain ⟨rfl, within⟩ := (leads_enter_within proper limit depth token _ _ run).2
  exact rest within

theorem Takes.begun {token : Token} {behind : Feed} (takes : Takes feed token behind) :
    behind.Begun := by
  rw [Feed.Begun, takes.previous]
  rfl

theorem refines_after_consume {kind : TokenClass} {expected : Expectation}
    {next : Token → Buffered β} {next' : Token → Parse β} (notEnd : kind ≠ .endOfInput)
    (rest : ∀ token behind, behind.Begun → Refines all room behind (next token) (next' token)) :
    Refines all room feed (Buffered.consume kind expected >>= next)
      (Parse.consume kind expected >>= next') := by
  apply refines_proper
  intro proper
  apply refines_bind (refines_consume kind expected)
  intro token behind run _
  exact rest token behind (leads_consume proper notEnd _ _ run).2.1.begun

theorem refines_after_accept {kind : TokenClass} {next : Option Token → Buffered β}
    {next' : Option Token → Parse β} (notEnd : kind ≠ .endOfInput)
    (missing : Refines all room feed (next none) (next' none))
    (present : ∀ token behind, behind.Begun →
      Refines all room behind (next (some token)) (next' (some token))) :
    Refines all room feed (Buffered.accept kind >>= next) (Parse.accept kind >>= next') := by
  apply refines_proper
  intro proper
  apply refines_bind (refines_accept kind)
  intro found behind run _
  obtain ⟨rfl, rfl⟩ | ⟨token, rfl, takes, _⟩ := (leads_accept proper notEnd _ _ run).2
  · exact missing
  · exact present token behind takes.begun

theorem refines_after_accept_open {kind : TokenClass} {next : Option Token → Buffered β}
    {next' : Option Token → Parse β} (notEnd : kind ≠ .endOfInput)
    (missing : Refines all room feed (next none) (next' none))
    (present : ∀ token behind, behind.Begun →
      Refines all room behind (next (some token)) (next' (some token))) :
    Refines all room feed (Buffered.acceptOpen kind >>= next)
      (Parse.acceptOpen kind >>= next') := by
  apply refines_proper
  intro proper
  apply refines_bind (refines_accept_open kind)
  intro found behind run _
  obtain ⟨rfl, rfl⟩ | ⟨token, rfl, takes, _⟩ := (leads_accept_open proper notEnd _ _ run).2
  · exact missing
  · exact present token behind takes.begun

end Sequences

end Rules

end LayoutScript
