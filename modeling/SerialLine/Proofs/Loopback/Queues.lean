import SerialLine.Proofs.Loopback.Wire
/-!
# Loopback ends as queues

Every end of a bench has a queue of input. `Bench.play` takes any actions in turn, each at the end
it names: calls of the device there, and what the bench offers besides (bytes injected, faults and
limits switched on and off). `queues_lawful` says that no byte is lost, made up or put out of order
on the way: what has been removed from a queue, followed by what is left of it, is what was there at
first, followed by what has been added, which is what was injected and what was accepted of the
writes that arrive there. Ends of pairs and ends that are their own far end are treated alike.
Pieces of input that arrive while a read waits are no action here; the law is about queues that
expect none. A read takes as much from the front as it has room for, and is put off only where the
queue is empty.

How much of a write is accepted is said in terms of the history of its end (`Account`), since the
budget of an end does not tell the limit that was set from the bytes that were accepted. The largest
number of 64 bits stands for no limit. An end whose limit it is does not count down, so its budget
never comes to be confused with a smaller one, and it answers as if it did count for as long as that
many bytes have not been accepted.

`step_makes` goes through the actions that change their own end only, one case for each, and
`lawful_write` is the one that may change two. `step_lawful` is one step and the theorems on `play`
are the inductions on the actions.
-/

set_option autoImplicit false

namespace SerialLine

namespace Bench

/-! ### Histories -/

/-- What can be done with an end of a bench: a call of its device, and what the bench offers on top
of that. -/
inductive Action
  | call (asked : Call)
  | inject (bytes : Bytes)
  | setFaulted (faulted : Bool)
  | setLimit (limit : Option Nat)

/-- What an action yields. -/
abbrev Action.Answer : Action → Type
  | .call asked => Except IoError asked.Answer
  | .inject _ | .setFaulted _ | .setLimit _ => Unit

/-- Takes an action at an end. -/
def act (b : Bench) (i : EndId) : (action : Action) → action.Answer × Bench
  | .call asked => (device i).perform asked b
  | .inject bytes => ((), b.inject i bytes)
  | .setFaulted faulted => ((), b.setFaulted i faulted)
  | .setLimit limit => ((), b.setLimit i limit)

/-- An action at an end, with the bench before and after it. -/
structure Step where
  place : EndId
  action : Action
  before : Bench
  answer : action.Answer
  after : Bench

/-- The step that an action is. -/
def step (b : Bench) (i : EndId) (action : Action) : Step :=
  ⟨i, action, b, (b.act i action).1, (b.act i action).2⟩

/-- What a list of actions leaves behind. -/
structure Run where
  steps : List Step
  bench : Bench

/-- Takes actions one after another, each at the end it names. -/
def play (b : Bench) : List (EndId × Action) → Run
  | [] => ⟨[], b⟩
  | (i, action) :: moves =>
    let rest := (b.act i action).2.play moves
    ⟨b.step i action :: rest.steps, rest.bench⟩

/-- The bytes that a step takes out of the queue at an end: those that are read there, and those
that are dropped when the input is cleared. -/
def Step.removed (k : EndId) : Step → Bytes
  | ⟨i, .call (.read _), _, .ok bytes, _⟩ => if i = k then bytes else []
  | ⟨i, .call .clearInput, before, .ok _, _⟩ => if i = k then (before.ends k).input else []
  | _ => []

/-- The bytes that a step brings to the queue at an end: those that are injected there, and the
accepted front of what is written to the end whose far end it is. -/
def Step.added (k : EndId) : Step → Bytes
  | ⟨i, .inject bytes, _, _, _⟩ => if i = k then bytes else []
  | ⟨i, .call (.write offered), _, .ok n, _⟩ => if i.far = k then offered.take n else []
  | _ => []

/-- What the history of an end says about writing to it. -/
structure Account where
  faulted : Bool := false
  /-- The limit that was set last, if it was not lifted. -/
  limit : Option Nat := none
  /-- The number of bytes that were accepted since. -/
  accepted : Nat := 0

/-- The account of an end after one more step. -/
def Account.after (k : EndId) (a : Account) : Step → Account
  | ⟨i, .setFaulted faulted, _, _, _⟩ => if i = k then { a with faulted } else a
  | ⟨i, .setLimit limit, _, _, _⟩ => if i = k then { a with limit, accepted := 0 } else a
  | ⟨i, .call (.write _), _, .ok n, _⟩ =>
    if i = k then { a with accepted := a.accepted + n } else a
  | _ => a

/-- The account of a new end after some steps. -/
def account (k : EndId) (steps : List Step) : Account := steps.foldl (Account.after k) {}

/-- How many of some bytes are accepted where there is a budget, or no limit. -/
def granted (budget : Option Nat) (length : Nat) : Nat :=
  match budget with
  | some n => min length n
  | none => length

/-- The answer to a write that goes by a budget. As many bytes are accepted as it allows; a write of
something that finds it used up is put off. -/
structure GoesBy (budget : Option Nat) (offered : Bytes) (answer : Except IoError Nat) : Prop where
  accepted : offered = [] ∨ budget ≠ some 0 → answer = .ok (granted budget offered.length)
  putOff : offered ≠ [] → budget = some 0 → ∃ e, answer = .error e ∧ e.kind = .timedOut

/-- The answer to a write as the history of its end has it. -/
structure Account.Answers (a : Account) (offered : Bytes) (answer : Except IoError Nat) : Prop where
  faulted : a.faulted = true → answer = .error disconnected
  unlimited : a.faulted = false → a.limit = none → GoesBy none offered answer
  /-- The budget is what is left of the limit. -/
  limited : a.faulted = false → ∀ limit, a.limit = some limit → limit < UInt64.size - 1 →
    GoesBy (some (limit - a.accepted)) offered answer
  /-- The largest number of 64 bits stands for no limit. This does not show until it is used up. -/
  marker : a.faulted = false → ∀ limit, a.limit = some limit → UInt64.size - 1 ≤ limit →
    GoesBy none offered answer ∧ (a.accepted + offered.length ≤ limit →
      GoesBy (some (limit - a.accepted)) offered answer)

/-- Only calls can fail. -/
def Step.Failed : Step → Prop
  | ⟨_, .call _, _, .error _, _⟩ => True
  | _ => False

/-- A write is answered as the account of its end has it. -/
def Step.WritesBy (a : Account) : Step → Prop
  | ⟨_, .call (.write offered), _, answer, _⟩ => a.Answers offered answer
  | _ => True

/-- A read takes what it has room for from the front of the queue, if nothing else is to arrive. It
fails with the time out only where there is nothing to take. -/
def Step.ReadsBy (a : Account) : Step → Prop
  | ⟨i, .call (.read room), before, answer, _⟩ =>
    answer = if a.faulted then .error disconnected
      else if room ≠ 0 ∧ (before.ends i).input = [] then
        .error ⟨.timedOut, "loopback read timed out"⟩
      else .ok ((before.ends i).input.take room)
  | _ => True

/-- A write to an end of a pair leaves the input of this end alone. -/
def Step.KeepsOwnInput : Step → Prop
  | ⟨i, .call (.write _), before, _, after⟩ =>
    i.far ≠ i → (after.ends i).input = (before.ends i).input
  | _ => True

/-- Neither the queue, nor the budget, nor the flush count of an end is changed. -/
def Step.LeavesAlone (x : Step) (k : EndId) : Prop :=
  (x.after.ends k).input = (x.before.ends k).input ∧
    (x.after.ends k).budget = (x.before.ends k).budget ∧
      (x.after.ends k).flushes = (x.before.ends k).flushes

/-! ### One end -/

/-- The account says what the end goes by. -/
structure Account.Describes (a : Account) (e : End) : Prop where
  faulted_eq : e.faulted = a.faulted
  budget_eq : e.budget = (a.limit.filter (· < UInt64.size - 1)).map (· - a.accepted)

/-- What an action makes of the end at which it is taken. -/
structure Step.Makes (x : Step) (e' : End) : Prop where
  after_eq : x.after = x.before.put x.place e'
  queue : (x.before.ends x.place).arriving = [] →
    x.removed x.place ++ e'.input = (x.before.ends x.place).input ++ x.added x.place ∧
      e'.arriving = []
  added_eq : ∀ k, x.place ≠ k → x.added k = []
  account : ∀ a : Account, a.Describes (x.before.ends x.place) → (a.after x.place x).Describes e'
  failed : x.Failed → e'.input = (x.before.ends x.place).input ∧
    e'.budget = (x.before.ends x.place).budget ∧ e'.flushes = (x.before.ends x.place).flushes

theorem unlessFaulted_cases {α : Type} (b : Bench) (i : EndId)
    (answer : Except IoError α × Bench) :
    ((b.ends i).faulted = true ∧ b.unlessFaulted i answer = (.error disconnected, b)) ∨
      (b.ends i).faulted = false ∧ b.unlessFaulted i answer = answer := by
  unfold unlessFaulted
  cases (b.ends i).faulted with
  | true => exact .inl ⟨rfl, rfl⟩
  | false => exact .inr ⟨rfl, rfl⟩

/-- A read finds nothing until the time is out, or takes what it has room for from the front. -/
theorem readFrom_cases (b : Bench) (i : EndId) (room : Nat) :
    ((room ≠ 0 ∧ (b.ends i).input = []) ∧
        b.readFrom i room = (.error ⟨.timedOut, "loopback read timed out"⟩,
          (b.put i { b.ends i with arriving := [] }).tick i (b.ends i).settings.timeout.nanos)) ∨
      ∃ bytes input arriving,
        b.readFrom i room = (.ok bytes, b.put i { b.ends i with input, arriving }) ∧
          ((b.ends i).arriving = [] → ¬(room ≠ 0 ∧ (b.ends i).input = []) ∧
            bytes = (b.ends i).input.take room ∧ input = (b.ends i).input.drop room ∧
            arriving = []) := by
  unfold readFrom
  by_cases hroom : room = 0
  · refine .inr ⟨[], (b.ends i).input, (b.ends i).arriving, ?_, fun h ↦ ⟨by simp [hroom], ?_⟩⟩
    · simp only [if_pos hroom]
      exact congrArg (Prod.mk _) (b.put_ends i).symm
    · rw [hroom]
      exact ⟨rfl, rfl, h⟩
  · simp only [if_neg hroom]
    cases hinput : (b.ends i).input with
    | nil =>
      cases harriving : (b.ends i).arriving.dropWhile List.isEmpty with
      | nil => exact .inl ⟨⟨hroom, rfl⟩, rfl⟩
      | cons piece pieces =>
        refine .inr ⟨_, _, _, rfl, fun hnone ↦ ?_⟩
        rw [hnone] at harriving
        cases harriving
    | cons byte bytes =>
      refine .inr ⟨_, _, _, rfl, fun hnone ↦ ?_⟩
      rw [← hinput]
      exact ⟨by simp [hinput], rfl, rfl, hnone⟩

/-- A call that fails moves nothing. -/
theorem makes_of_error (b : Bench) (i : EndId) (asked : Call) (cause : IoError) {e' : End}
    (hinput : e'.input = (b.ends i).input)
    (harriving : (b.ends i).arriving = [] → e'.arriving = [])
    (hfaulted : e'.faulted = (b.ends i).faulted) (hbudget : e'.budget = (b.ends i).budget)
    (hflushes : e'.flushes = (b.ends i).flushes) :
    (Step.mk i (.call asked) b (.error cause) (b.put i e')).Makes e' where
  after_eq := rfl
  queue hnone := by
    have hremoved : (Step.mk i (.call asked) b (.error cause) (b.put i e')).removed i = [] := by
      cases asked <;> rfl
    have hadded : (Step.mk i (.call asked) b (.error cause) (b.put i e')).added i = [] := by
      cases asked <;> rfl
    rw [hremoved, hadded, hinput, List.append_nil]
    exact ⟨rfl, harriving hnone⟩
  added_eq k _ := by cases asked <;> rfl
  account a ha := by
    have hafter : a.after i (Step.mk i (.call asked) b (.error cause) (b.put i e')) = a := by
      cases asked <;> rfl
    rw [hafter]
    exact ⟨hfaulted.trans ha.faulted_eq, hbudget.trans ha.budget_eq⟩
  failed _ := ⟨hinput, hbudget, hflushes⟩

/-- The refusal of an end that is made to fail. -/
theorem makes_of_refusal (b : Bench) (i : EndId) (asked : Call) (cause : IoError) :
    (Step.mk i (.call asked) b (.error cause) b).Makes (b.ends i) := by
  have hmakes := b.makes_of_error i asked cause (rfl : (b.ends i).input = _) id rfl rfl rfl
  rwa [put_ends] at hmakes

/-- An answer that takes nothing out of the queue and brings nothing to it. -/
theorem makes_of_quiet (b : Bench) (i : EndId) (asked : Call) (answer : asked.Answer) {e' : End}
    (hremoved : ∀ b', (Step.mk i (.call asked) b (.ok answer) b').removed i = [])
    (hadded : ∀ k b', (Step.mk i (.call asked) b (.ok answer) b').added k = [])
    (haccount : ∀ a b', Account.after i a ⟨i, .call asked, b, .ok answer, b'⟩ = a)
    (hinput : e'.input = (b.ends i).input) (harriving : e'.arriving = (b.ends i).arriving)
    (hfaulted : e'.faulted = (b.ends i).faulted) (hbudget : e'.budget = (b.ends i).budget) :
    (Step.mk i (.call asked) b (.ok answer) (b.put i e')).Makes e' where
  after_eq := rfl
  queue hnone := by
    rw [hremoved, hadded, hinput, List.append_nil]
    exact ⟨rfl, harriving.trans hnone⟩
  added_eq k _ := hadded k _
  account a ha := by
    rw [haccount]
    exact ⟨hfaulted.trans ha.faulted_eq, hbudget.trans ha.budget_eq⟩
  failed h := by cases h

/-- A call that an end refuses where it is made to fail. -/
theorem makes_unlessFaulted (b : Bench) (i : EndId) (asked : Call)
    (answer : Except IoError asked.Answer × Bench)
    (hasked : b.act i (.call asked) = b.unlessFaulted i answer)
    (hworks : ∃ e', (Step.mk i (.call asked) b answer.1 answer.2).Makes e') :
    ∃ e', (b.step i (.call asked)).Makes e' := by
  rcases b.unlessFaulted_cases i answer with ⟨-, hrefused⟩ | ⟨-, hanswer⟩
  · rw [step, hasked, hrefused]
    exact ⟨_, b.makes_of_refusal i asked disconnected⟩
  · rw [step, hasked, hanswer]
    exact hworks

/-- A read takes bytes from the front of the input, or fails and moves nothing. -/
theorem step_makes_read (b : Bench) (i : EndId) (room : Nat) :
    ∃ e', (b.step i (.call (.read room))).Makes e' := by
  refine b.makes_unlessFaulted i (.read room) _ rfl ?_
  rcases b.readFrom_cases i room with ⟨-, hread⟩ | ⟨bytes, input, arriving, hread, hqueue⟩
  · rw [hread]
    simp only [tick, modify_put_self, Prod.map_apply, id_eq]
    exact ⟨_, b.makes_of_error i _ _ rfl (fun _ ↦ rfl) rfl rfl rfl⟩
  · rw [hread]
    simp only [tick, modify_put_self, Prod.map_apply, id_eq]
    refine ⟨_, rfl, fun hnone ↦ ?_, fun _ _ ↦ rfl, fun a ha ↦ ⟨ha.faulted_eq, ha.budget_eq⟩,
      fun h ↦ h.elim⟩
    obtain ⟨-, hfront, hrest, hlater⟩ := hqueue hnone
    refine ⟨?_, hlater⟩
    show (if i = i then bytes else []) ++ input = (b.ends i).input ++ []
    rw [if_pos rfl, hfront, hrest, List.take_append_drop, List.append_nil]

theorem readsBy_read (b : Bench) (i : EndId) (room : Nat) {a : Account}
    (ha : a.Describes (b.ends i)) (hnone : (b.ends i).arriving = []) :
    (b.step i (.call (.read room))).ReadsBy a := by
  show (b.unlessFaulted i ((b.readFrom i room).map id (·.tick i b.pace))).1 = _
  rw [← ha.faulted_eq]
  rcases b.unlessFaulted_cases i ((b.readFrom i room).map id (·.tick i b.pace)) with
    ⟨hfaulted, hanswer⟩ | ⟨hworks, hanswer⟩
  · rw [hanswer, if_pos hfaulted]
  · rw [hanswer, hworks, if_neg Bool.false_ne_true]
    rcases b.readFrom_cases i room with ⟨hempty, hread⟩ | ⟨bytes, input, arriving, hread, hqueue⟩
    · rw [hread]
      exact (if_pos hempty).symm
    · obtain ⟨hthere, hfront, -, -⟩ := hqueue hnone
      rw [hread, hfront]
      exact (if_neg hthere).symm

theorem step_readsBy (b : Bench) (i : EndId) (action : Action) {a : Account}
    (ha : a.Describes (b.ends i)) (hnone : (b.ends i).arriving = []) :
    (b.step i action).ReadsBy a := by
  cases action with
  | inject bytes | setFaulted faulted | setLimit limit => trivial
  | call asked =>
    cases asked with
    | read room => exact b.readsBy_read i room ha hnone
    | _ => trivial

/-- Every action but a write changes its own end only. -/
theorem step_makes (b : Bench) (i : EndId) {action : Action}
    (hother : ∀ offered, action ≠ .call (.write offered)) :
    ∃ e', (b.step i action).Makes e' := by
  cases action with
  | inject bytes =>
    refine ⟨{ b.ends i with input := (b.ends i).input ++ bytes }, rfl, fun hnone ↦ ⟨?_, hnone⟩,
      fun k hk ↦ if_neg hk, fun a ha ↦ ⟨ha.faulted_eq, ha.budget_eq⟩, fun h ↦ h.elim⟩
    exact congrArg ((b.ends i).input ++ ·) (if_pos rfl).symm
  | setFaulted faulted =>
    refine ⟨{ b.ends i with faulted }, rfl, fun hnone ↦ ⟨(List.append_nil _).symm, hnone⟩,
      fun _ _ ↦ rfl, fun a ha ↦ ?_, fun h ↦ h.elim⟩
    show (if i = i then _ else _ : Account).Describes _
    rw [if_pos rfl]
    exact ⟨rfl, ha.budget_eq⟩
  | setLimit limit =>
    refine ⟨{ b.ends i with budget := limit.filter (· < UInt64.size - 1) }, rfl,
      fun hnone ↦ ⟨(List.append_nil _).symm, hnone⟩, fun _ _ ↦ rfl, fun a ha ↦ ?_, fun h ↦ h.elim⟩
    show (if i = i then _ else _ : Account).Describes _
    rw [if_pos rfl]
    exact ⟨ha.faulted_eq, by simp⟩
  | call asked =>
    cases asked with
    | set change =>
      exact ⟨{ b.ends i with settings := (b.ends i).settings.record change },
        b.makes_of_quiet i (.set change) () (fun _ ↦ rfl) (fun _ _ ↦ rfl) (fun _ _ ↦ rfl)
          rfl rfl rfl rfl⟩
    | bytesToRead =>
      refine b.makes_unlessFaulted i .bytesToRead _ rfl ⟨b.ends i, ?_⟩
      have hquiet := b.makes_of_quiet i .bytesToRead
        (min (UInt32.size - 1) (b.ends i).input.length) (fun _ ↦ rfl) (fun _ _ ↦ rfl)
        (fun _ _ ↦ rfl) (rfl : (b.ends i).input = _) rfl rfl rfl
      rwa [put_ends] at hquiet
    | clearInput =>
      refine ⟨{ b.ends i with input := [] }, rfl, fun hnone ↦ ⟨?_, hnone⟩, fun _ _ ↦ rfl,
        fun a ha ↦ ⟨ha.faulted_eq, ha.budget_eq⟩, fun h ↦ h.elim⟩
      exact congrArg (· ++ []) (if_pos rfl)
    | clearOutput =>
      have hquiet := b.makes_of_quiet i .clearOutput () (fun _ ↦ rfl) (fun _ _ ↦ rfl)
        (fun _ _ ↦ rfl) (rfl : (b.ends i).input = _) rfl rfl rfl
      rw [put_ends] at hquiet
      exact ⟨b.ends i, hquiet⟩
    | read room => exact b.step_makes_read i room
    | write offered => exact absurd rfl (hother offered)
    | flush =>
      exact b.makes_unlessFaulted i .flush _ rfl ⟨_, b.makes_of_quiet i .flush () (fun _ ↦ rfl)
        (fun _ _ ↦ rfl) (fun _ _ ↦ rfl) rfl rfl rfl rfl⟩

/-! ### A write -/

/-- What an accepted write makes of a bench. -/
def paid (b : Bench) (i : EndId) (n : Nat) (output : Bytes) (nanos : Nat) : Bench :=
  ((b.modify i fun e ↦ { e with budget := e.budget.map (· - n) }).modify i.far fun far ↦
    { far with input := far.input ++ output }).tick i nanos

theorem granted_eq_zero {budget : Option Nat} {offered : Bytes} (h : offered ≠ []) :
    granted budget offered.length = 0 ↔ budget = some 0 := by
  cases budget with
  | none => simpa [granted] using h
  | some n => simp [granted, h]

/-- Where a budget is used up, something that is offered is put off. Else as much of it as the
budget allows is paid for and comes to the far end. -/
theorem writeTo_goesBy (b : Bench) (i : EndId) (offered : Bytes) (nanos : Nat) :
    (∃ cause, GoesBy (b.ends i).budget offered (.error cause) ∧
        (b.writeTo i offered).map id (·.tick i nanos) = (.error cause, b.tick i nanos)) ∨
      ∃ n, GoesBy (b.ends i).budget offered (.ok n) ∧
        (b.writeTo i offered).map id (·.tick i nanos) =
          (.ok n, b.paid i n (offered.take n) nanos) := by
  by_cases hrefused : offered ≠ [] ∧ granted (b.ends i).budget offered.length = 0
  · obtain ⟨hsome, hzero⟩ := hrefused
    have hused := (granted_eq_zero hsome).mp hzero
    have hanswer : b.writeTo i offered = (.error ⟨.timedOut, "loopback write timed out"⟩, b) :=
      if_pos ⟨hsome, hzero⟩
    refine .inl ⟨_, ⟨fun h ↦ ?_, fun _ _ ↦ ⟨_, rfl, rfl⟩⟩, by rw [hanswer]; rfl⟩
    exact absurd hused (h.resolve_left hsome)
  · have hanswer : b.writeTo i offered = (.ok (granted (b.ends i).budget offered.length), _) :=
      if_neg hrefused
    refine .inr ⟨_, ⟨fun _ ↦ rfl, fun hsome hused ↦ ?_⟩, by rw [hanswer]; rfl⟩
    exact absurd ⟨hsome, (granted_eq_zero hsome).mpr hused⟩ hrefused

/-- The account of an end that works knows its budget. -/
theorem Account.Describes.answers {a : Account} {e : End} (ha : a.Describes e)
    (hworks : e.faulted = false) {offered : Bytes} {answer : Except IoError Nat}
    (hanswer : GoesBy e.budget offered answer) : a.Answers offered answer where
  faulted hfaulted := by
    rw [← ha.faulted_eq, hworks] at hfaulted
    cases hfaulted
  unlimited _ hlimit := by
    rwa [ha.budget_eq, hlimit] at hanswer
  limited _ limit hlimit hlt := by
    rwa [ha.budget_eq, hlimit, Option.filter_some_pos (by simpa using hlt)] at hanswer
  marker _ limit hlimit hle := by
    rw [ha.budget_eq, hlimit, Option.filter_some_neg (by simpa using hle)] at hanswer
    refine ⟨hanswer, fun hroom ↦ ⟨fun h ↦ ?_, fun hsome hzero ↦ ?_⟩⟩
    · rw [hanswer.accepted (h.imp_right fun _ ↦ by simp)]
      have hall : min offered.length (limit - a.accepted) = offered.length :=
        Nat.min_eq_left (Nat.le_sub_of_add_le' hroom)
      exact congrArg Except.ok hall.symm
    · have hlength : offered.length ≠ 0 := fun h ↦ hsome (List.length_eq_zero_iff.mp h)
      have hused : limit - a.accepted = 0 := Option.some.inj hzero
      omega

/-- An end that is made to fail answers every write so. -/
theorem Account.Describes.refuses {a : Account} {e : End} (ha : a.Describes e)
    (hfaulted : e.faulted = true) (offered : Bytes) :
    a.Answers offered (.error disconnected) := by
  have ha' : a.faulted ≠ false := by rw [← ha.faulted_eq, hfaulted]; exact Bool.noConfusion
  exact ⟨fun _ ↦ rfl, fun h ↦ absurd h ha', fun h ↦ absurd h ha', fun h ↦ absurd h ha'⟩

theorem modify_ends (b : Bench) (i : EndId) (change : End → End) (k : EndId) :
    (b.modify i change).ends k = if i = k then change (b.ends k) else b.ends k := by
  by_cases hk : i = k
  · rw [if_pos hk, hk, modify_ends_self]
  · rw [if_neg hk, modify_ends_of_ne _ _ (Ne.symm hk)]

/-- Only the clock of its own end is left open. -/
theorem paid_ends (b : Bench) (i : EndId) (n : Nat) (output : Bytes) (nanos : Nat) (k : EndId) :
    ∃ clock, (b.paid i n output nanos).ends k = { b.ends k with
      input := (b.ends k).input ++ if i.far = k then output else []
      budget := if i = k then (b.ends k).budget.map (· - n) else (b.ends k).budget
      clock } := by
  rw [paid, tick, modify_ends, modify_ends, modify_ends]
  by_cases hnear : i = k
  · simp only [if_pos hnear]
    by_cases hfar : i.far = k
    · simp only [if_pos hfar]
      exact ⟨_, rfl⟩
    · simp only [if_neg hfar, List.append_nil]
      exact ⟨_, rfl⟩
  · simp only [if_neg hnear]
    by_cases hfar : i.far = k
    · simp only [if_pos hfar]
      exact ⟨_, rfl⟩
    · simp only [if_neg hfar, List.append_nil]
      exact ⟨_, rfl⟩

/-! ### One step -/

/-- What a step does, in terms of the account of its end. -/
structure Step.Lawful (x : Step) : Prop where
  queue : ∀ k, (x.before.ends k).arriving = [] →
    x.removed k ++ (x.after.ends k).input = (x.before.ends k).input ++ x.added k ∧
      (x.after.ends k).arriving = []
  account : ∀ k (a : Account), a.Describes (x.before.ends k) →
    (a.after k x).Describes (x.after.ends k)
  writes : ∀ a : Account, a.Describes (x.before.ends x.place) → x.WritesBy a
  reads : ∀ a : Account, a.Describes (x.before.ends x.place) →
    (x.before.ends x.place).arriving = [] → x.ReadsBy a
  ownInput : x.KeepsOwnInput
  failed : x.Failed → ∀ k, x.LeavesAlone k

theorem Step.removed_of_ne {x : Step} {k : EndId} (h : x.place ≠ k) : x.removed k = [] := by
  unfold Step.removed
  split
  · exact if_neg h
  · exact if_neg h
  · rfl

theorem Account.after_of_ne {x : Step} {k : EndId} (h : x.place ≠ k) (a : Account) :
    a.after k x = a := by
  unfold Account.after
  split
  · exact if_neg h
  · exact if_neg h
  · exact if_neg h
  · rfl

theorem Step.writesBy_of_other {x : Step} (h : ∀ offered, x.action ≠ .call (.write offered))
    (a : Account) : x.WritesBy a := by
  unfold Step.WritesBy
  split
  · exact absurd rfl (h _)
  · trivial

theorem Step.keepsOwnInput_of_other {x : Step} (h : ∀ offered, x.action ≠ .call (.write offered)) :
    x.KeepsOwnInput := by
  unfold Step.KeepsOwnInput
  split
  · exact absurd rfl (h _)
  · trivial

/-- A step that changes its own end only. -/
theorem Step.Makes.lawful {x : Step} {e' : End} (h : x.Makes e')
    (hwrites : ∀ a : Account, a.Describes (x.before.ends x.place) → x.WritesBy a)
    (hreads : ∀ a : Account, a.Describes (x.before.ends x.place) →
      (x.before.ends x.place).arriving = [] → x.ReadsBy a)
    (hown : x.KeepsOwnInput) : x.Lawful where
  queue k hnone := by
    by_cases hk : x.place = k
    · subst hk
      rw [h.after_eq, put_ends_self]
      exact h.queue hnone
    · rw [h.after_eq, put_ends_of_ne _ _ (Ne.symm hk), Step.removed_of_ne hk, h.added_eq k hk,
        List.append_nil]
      exact ⟨rfl, hnone⟩
  account k a ha := by
    by_cases hk : x.place = k
    · subst hk
      rw [h.after_eq, put_ends_self]
      exact h.account a ha
    · rw [h.after_eq, put_ends_of_ne _ _ (Ne.symm hk), Account.after_of_ne hk]
      exact ha
  writes := hwrites
  reads := hreads
  ownInput := hown
  failed hfailed k := by
    rw [Step.LeavesAlone, h.after_eq]
    by_cases hk : x.place = k
    · subst hk
      rw [put_ends_self]
      exact h.failed hfailed
    · rw [put_ends_of_ne _ _ (Ne.symm hk)]
      exact ⟨rfl, rfl, rfl⟩

/-- A write that is accepted is paid for at its own end and brings bytes to the far one, which may
be the same. -/
theorem lawful_paid (b : Bench) (i : EndId) (offered : Bytes) (n nanos : Nat)
    (hworks : (b.ends i).faulted = false) (hgoes : GoesBy (b.ends i).budget offered (.ok n)) :
    (Step.mk i (.call (.write offered)) b (.ok n)
      (b.paid i n (offered.take n) nanos)).Lawful where
  queue k hnone := by
    obtain ⟨clock, hend⟩ := b.paid_ends i n (offered.take n) nanos k
    rw [hend]
    exact ⟨rfl, hnone⟩
  account k a ha := by
    obtain ⟨clock, hend⟩ := b.paid_ends i n (offered.take n) nanos k
    rw [hend]
    by_cases hk : i = k
    · have hafter : a.after k ⟨i, .call (.write offered), b, .ok n,
          b.paid i n (offered.take n) nanos⟩ = { a with accepted := a.accepted + n } := if_pos hk
      rw [hafter]
      refine ⟨ha.faulted_eq, ?_⟩
      rw [if_pos hk, ha.budget_eq, Option.map_map]
      exact congrArg (Option.map · _) (funext fun limit ↦ Nat.sub_sub limit a.accepted n)
    · rw [Account.after_of_ne hk]
      exact ⟨ha.faulted_eq, (if_neg hk).trans ha.budget_eq⟩
  writes a ha := ha.answers hworks hgoes
  reads _ _ _ := trivial
  ownInput hpair := by
    obtain ⟨clock, hend⟩ := b.paid_ends i n (offered.take n) nanos i
    rw [hend, if_neg hpair, List.append_nil]
  failed h := h.elim

theorem lawful_write (b : Bench) (i : EndId) (offered : Bytes) :
    (b.step i (.call (.write offered))).Lawful := by
  show Step.Lawful ⟨i, .call (.write offered), b,
    (b.unlessFaulted i ((b.writeTo i offered).map id (·.tick i b.pace))).1,
    (b.unlessFaulted i ((b.writeTo i offered).map id (·.tick i b.pace))).2⟩
  rcases b.unlessFaulted_cases i ((b.writeTo i offered).map id (·.tick i b.pace)) with
    ⟨hfaulted, hanswer⟩ | ⟨hworks, hanswer⟩
  · rw [hanswer]
    exact (b.makes_of_refusal i _ _).lawful (fun a ha ↦ ha.refuses hfaulted offered)
      (fun _ _ _ ↦ trivial) fun _ ↦ rfl
  rcases b.writeTo_goesBy i offered b.pace with ⟨cause, hgoes, hput⟩ | ⟨n, hgoes, hpaid⟩
  · rw [hanswer, hput]
    have hmakes : (Step.mk i (.call (.write offered)) b (.error cause) (b.tick i b.pace)).Makes
        { b.ends i with clock := (b.ends i).clock + b.pace } :=
      b.makes_of_error i (.write offered) cause rfl id rfl rfl rfl
    refine hmakes.lawful (fun a ha ↦ ha.answers hworks hgoes) (fun _ _ _ ↦ trivial) fun _ ↦ ?_
    rw [tick, modify_ends_self]
  · rw [hanswer, hpaid]
    exact b.lawful_paid i offered n b.pace hworks hgoes

theorem step_lawful (b : Bench) (i : EndId) (action : Action) : (b.step i action).Lawful := by
  by_cases hwrite : ∃ offered, action = .call (.write offered)
  · obtain ⟨offered, rfl⟩ := hwrite
    exact b.lawful_write i offered
  · have hother : ∀ offered, (b.step i action).action ≠ .call (.write offered) :=
      fun offered h ↦ hwrite ⟨offered, h⟩
    obtain ⟨e', hmakes⟩ := b.step_makes i hother
    exact hmakes.lawful (fun a _ ↦ Step.writesBy_of_other hother a)
      (fun a ha hnone ↦ b.step_readsBy i action ha hnone) (Step.keepsOwnInput_of_other hother)

/-! ### A run -/

/-- What holds of the queues of a bench in a run that starts there. -/
structure QueueLaw (b : Bench) (run : Run) : Prop where
  /-- What was removed from a queue and what is left of it is what was there and what was added. -/
  conserved : ∀ k, (b.ends k).arriving = [] →
    run.steps.flatMap (Step.removed k) ++ (run.bench.ends k).input =
      (b.ends k).input ++ run.steps.flatMap (Step.added k)
  /-- At an end that works and has no limit at first, every write is answered as the steps before
  it have it, and so is every read. -/
  writes : ∀ past x later, run.steps = past ++ x :: later →
    (b.ends x.place).faulted = false → (b.ends x.place).budget = none →
      x.WritesBy (account x.place past)
  reads : ∀ past x later, run.steps = past ++ x :: later →
    (b.ends x.place).faulted = false → (b.ends x.place).budget = none →
      (b.ends x.place).arriving = [] → x.ReadsBy (account x.place past)
  ownInput : ∀ x ∈ run.steps, x.KeepsOwnInput
  failed : ∀ x ∈ run.steps, x.Failed → ∀ k, x.LeavesAlone k

theorem play_lawful (b : Bench) (moves : List (EndId × Action)) :
    ∀ x ∈ (b.play moves).steps, x.Lawful := by
  induction moves generalizing b with
  | nil => exact fun x hx ↦ by cases hx
  | cons move moves ih =>
    intro x hx
    rcases List.mem_cons.mp hx with rfl | hlater
    · exact b.step_lawful move.1 move.2
    · exact ih _ x hlater

theorem play_conserves (b : Bench) (moves : List (EndId × Action)) {k : EndId}
    (hnone : (b.ends k).arriving = []) :
    (b.play moves).steps.flatMap (Step.removed k) ++ ((b.play moves).bench.ends k).input =
      (b.ends k).input ++ (b.play moves).steps.flatMap (Step.added k) := by
  induction moves generalizing b with
  | nil => exact (List.append_nil _).symm
  | cons move moves ih =>
    obtain ⟨hqueue, hlater⟩ := (b.step_lawful move.1 move.2).queue k hnone
    have hrest := ih (b.act move.1 move.2).2 hlater
    calc (b.step move.1 move.2).removed k ++ _ ++ _
        = (b.step move.1 move.2).removed k ++ (_ ++ _) := List.append_assoc ..
      _ = (b.step move.1 move.2).removed k ++ (_ ++ _) := congrArg _ hrest
      _ = (b.step move.1 move.2).removed k ++ ((b.act move.1 move.2).2.ends k).input ++ _ :=
        (List.append_assoc ..).symm
      _ = (b.ends k).input ++ (b.step move.1 move.2).added k ++ _ := congrArg (· ++ _) hqueue
      _ = (b.ends k).input ++ ((b.step move.1 move.2).added k ++ _) := List.append_assoc ..

/-- What holds of an end at first and is kept by every step still holds before a step of the run. -/
theorem play_reaches (b : Bench) (moves : List (EndId × Action)) {past later : List Step}
    {x : Step} (hsteps : (b.play moves).steps = past ++ x :: later) (k : EndId) :
    (∀ a : Account, a.Describes (b.ends k) →
      (past.foldl (Account.after k) a).Describes (x.before.ends k)) ∧
    ((b.ends k).arriving = [] → (x.before.ends k).arriving = []) := by
  induction moves generalizing b past with
  | nil => exact absurd hsteps (by simp [play])
  | cons move moves ih =>
    cases past with
    | nil =>
      obtain ⟨rfl, -⟩ := List.cons.inj hsteps
      exact ⟨fun _ ha ↦ ha, id⟩
    | cons y past =>
      obtain ⟨rfl, hrest⟩ := List.cons.inj hsteps
      obtain ⟨hdescribes, hquiet⟩ := ih (b.act move.1 move.2).2 hrest
      have hlawful := b.step_lawful move.1 move.2
      exact ⟨fun a ha ↦ hdescribes _ (hlawful.account k a ha),
        fun hnone ↦ hquiet (hlawful.queue k hnone).2⟩

theorem queues_lawful (b : Bench) (moves : List (EndId × Action)) : QueueLaw b (b.play moves) where
  conserved _ hnone := b.play_conserves moves hnone
  writes _ x _ hsteps hfaulted hbudget :=
    (b.play_lawful moves x (by simp [hsteps])).writes _
      ((b.play_reaches moves hsteps x.place).1 {} ⟨hfaulted, hbudget⟩)
  reads _ x _ hsteps hfaulted hbudget hnone := by
    obtain ⟨hdescribes, hquiet⟩ := b.play_reaches moves hsteps x.place
    exact (b.play_lawful moves x (by simp [hsteps])).reads _ (hdescribes {} ⟨hfaulted, hbudget⟩)
      (hquiet hnone)
  ownInput x hx := (b.play_lawful moves x hx).ownInput
  failed x hx := (b.play_lawful moves x hx).failed

/-- Two bytes are read of the three that the limit lets pass. -/
example :
    let run := play ({} : Bench) [(.left 0, .setLimit (some 3)), (.left 0, .call (.write [1, 2])),
      (.left 0, .call (.write [3, 4])), (.left 0, .call (.write [4])), (.right 0, .call (.read 2))]
    run.steps.flatMap (Step.added (.right 0)) = [1, 2, 3] ∧
      run.steps.flatMap (Step.removed (.right 0)) = [1, 2] ∧
        (run.bench.ends (.right 0)).input = [3] := by
  decide

end Bench

end SerialLine
