import Mathlib.Data.List.DropRight
import IntcodeMachine.Proofs.Machine.Operations
import IntcodeMachine.Proofs.Snapshot.Lossless
import IntcodeMachine.Workbench

/-! # A workbench is the machine in it

A workbench keeps a program beside its machine, and both are what the calls so far
have made of them: the program is the last one that could be read (`lastProgram`),
the machine is at the start of this program, followed by the operations made since a
program was loaded or the workbench was reset (`operationsSince`).  `Keeps` says so,
and one call keeps it (`Keeps.perform`).

A call is an operation of the machine, a fresh start, or a question.  For an
operation, a workbench is the machine with some answers told in other words
(`perform_operation`).
-/
namespace IntcodeMachine

theorem Machine.Session.append {m m' m'' : Machine} {operations later : List Machine.Operation}
    {answers more : List Machine.Answer} (session : m.Session operations answers m')
    (rest : m'.Session later more m'') : m.Session (operations ++ later) (answers ++ more) m'' := by
  induction session with
  | nil => exact rest
  | cons first _ ih => exact .cons first (ih rest)

/-- The answer says that the operation has failed. -/
def Machine.Answer.fails : Machine.Answer → Bool
  | .stepped (.error _) | .ran (.error _) | .surfaced (.error _) | .refused _ => true
  | _ => false

namespace Workbench

/-! ## Calls -/

/-- What can be asked of a workbench. -/
inductive Question
  | outputs
  | isHalted
  | counter
  | base
  | steps
  | memoryRange (start count : UInt64)
  | stateText
deriving DecidableEq

/-- What can be done with a workbench. -/
inductive Call
  | load (source : String)
  | reset
  | setInput (value : Cell)
  | step
  | run
  | runToOutput
  | ask (question : Question)
deriving DecidableEq

/-- What a workbench answers. -/
inductive Answer
  | loaded (result : Except ListingError Nat)
  | done
  | stepped (result : Except Fault String)
  | ran (result : Except Fault UInt64)
  | surfaced (result : Except Fault (Option Cell))
  | cells (values : List Cell)
  | flag (holds : Bool)
  | cell (value : Cell)
  | number (n : UInt64)
  | text (text : String)

/-- The answer says that the call has failed. -/
def Answer.fails : Answer → Bool
  | .loaded (.error _) | .stepped (.error _) | .ran (.error _) | .surfaced (.error _) => true
  | _ => false

/-- The answer to a question. -/
def tell (w : Workbench) : Question → Answer
  | .outputs => .cells w.machine.outputs.toList
  | .isHalted => .flag (w.machine.status == .halted)
  | .counter => .cell w.machine.counter
  | .base => .cell w.machine.base
  | .steps => .number w.machine.steps
  | .memoryRange start count => .cells (w.memoryRange start count)
  | .stateText => .text w.stateText

/-- The answer of a call and the workbench after it, if `fuel` steps are enough. -/
def perform (w : Workbench) (call : Call) (fuel : Nat) : Option (Answer × Workbench) :=
  match call with
  | .load source => some (.loaded (w.load source).1, (w.load source).2)
  | .reset => some (.done, w.reset)
  | .setInput value => some (.done, w.setInput value)
  | .step => some (.stepped w.step.1, w.step.2)
  | .run => (w.run fuel).map fun r => (.ran r.1, r.2)
  | .runToOutput => (w.runToOutput fuel).map fun r => (.surfaced r.1, r.2)
  | .ask question => some (w.tell question, w)

/-- These calls of a new workbench, one after the other, give these answers and leave this
workbench. -/
inductive Session : List Call → List Answer → Workbench → Prop
  | new : Session [] [] {}
  | perform {calls : List Call} {answers : List Answer} {w w' : Workbench} {call : Call}
      {answer : Answer} (before : Session calls answers w)
      (performed : Returns (w.perform call) (answer, w')) :
      Session (calls ++ [call]) (answers ++ [answer]) w'

variable {w w' : Workbench} {calls : List Call} {call : Call} {answers : List Answer}
variable {answer : Answer}

/-! ## What has been loaded, and what has been done since -/

/-- The program that a call loads. -/
def Call.program? : Call → Option (List Cell)
  | .load source => (Listing.parse source).toOption
  | _ => none

/-- The operation of the machine that a call is. -/
def Call.operation? : Call → Option Machine.Operation
  | .setInput value => some (.setInput value)
  | .step => some .step
  | .run => some .run
  | .runToOutput => some .runToOutput
  | _ => none

/-- A call that brings the machine to the start of a program. -/
def Call.restarts : Call → Bool
  | .load source => (Listing.parse source).isOk
  | .reset => true
  | _ => false

/-- **The last program that could be read**, or none at all. -/
def lastProgram (calls : List Call) : List Cell := (calls.filterMap Call.program?).getLast?.getD []

/-- **The operations since the machine was brought to the start of its program.** -/
def operationsSince (calls : List Call) : List Machine.Operation :=
  (calls.rtakeWhile fun call => !call.restarts).filterMap Call.operation?

theorem lastProgram_concat (calls : List Call) (call : Call) :
    lastProgram (calls ++ [call]) = call.program?.getD (lastProgram calls) := by
  unfold lastProgram
  cases loads : call.program? with
  | none => rw [List.filterMap_append, List.filterMap_cons_none loads, List.filterMap_nil,
      List.append_nil, Option.getD_none]
  | some program => rw [List.filterMap_append, List.filterMap_cons_some loads, List.filterMap_nil,
      List.getLast?_concat, Option.getD_some, Option.getD_some]

/-- Without a fresh start no program is loaded. -/
theorem program?_of_restarts (goesOn : call.restarts = false) : call.program? = none := by
  cases call with
  | load source =>
    rw [Call.restarts] at goesOn
    rw [Call.program?]
    cases parsed : Listing.parse source with
    | ok program => rw [parsed] at goesOn; cases goesOn
    | error e => rfl
  | _ => rfl

theorem restarts_of_operation {o : Machine.Operation} (h : call.operation? = some o) :
    call.restarts = false := by
  cases call with
  | load | reset => cases h
  | _ => rfl

theorem operationsSince_restart (calls : List Call) (restarts : call.restarts = true) :
    operationsSince (calls ++ [call]) = [] := by
  rw [operationsSince, List.rtakeWhile_concat_neg _ _ _ (by rw [restarts]; exact Bool.false_ne_true)]
  rfl

theorem operationsSince_concat (calls : List Call) (goesOn : call.restarts = false) :
    operationsSince (calls ++ [call]) = operationsSince calls ++ call.operation?.toList := by
  rw [operationsSince, List.rtakeWhile_concat_pos _ _ _ (by rw [goesOn]; rfl), List.filterMap_append,
    ← operationsSince, List.filterMap_cons]
  cases call.operation? <;> rfl

/-! ## Operations of the machine -/

/-- An answer of the machine in the words of the workbench, which does not write into memory. -/
def told : Machine.Answer → Option Answer
  | .stepped result => some (.stepped (result.map (·.opcode.mnemonic)))
  | .ran result => some (.ran result)
  | .surfaced result => some (.surfaced (result.map Outcome.output?))
  | .done => some .done
  | .refused _ => none

/-- What is told of a failure is a failure. -/
theorem fails_of_told {given : Machine.Answer} (h : told given = some answer) :
    answer.fails = given.fails := by
  cases given with
  | done => cases h; rfl
  | stepped result | ran result | surfaced result => cases h; cases result <;> rfl
  | refused => cases h

/-- **An operation is done by the machine**, and its program stays. -/
theorem perform_operation {o : Machine.Operation} (w : Workbench) (h : call.operation? = some o)
    (fuel : Nat) :
    w.perform call fuel = (w.machine.perform o fuel).bind fun r =>
      (told r.1).map fun answer => (answer, { w with machine := r.2 }) := by
  obtain ⟨program, machine⟩ := w
  cases call with
  | setInput value => cases h; rfl
  | step => cases h; rfl
  | run =>
    cases h
    change ((machine.run fuel).map _).map _ = ((machine.run fuel).map _).bind _
    cases machine.run fuel <;> rfl
  | runToOutput =>
    cases h
    change ((machine.runToOutput fuel).map _).map _ = ((machine.runToOutput fuel).map _).bind _
    cases machine.runToOutput fuel <;> rfl
  | load | reset | ask => cases h

/-- **A call that is an operation returns what the machine returns.** -/
theorem returns_operation_iff {o : Machine.Operation} (h : call.operation? = some o) :
    Returns (w.perform call) (answer, w') ↔ ∃ given m, Returns (w.machine.perform o) (given, m) ∧
      told given = some answer ∧ w' = { w with machine := m } := by
  simp only [Returns, perform_operation w h, Option.bind_eq_some_iff, Option.map_eq_some_iff]
  constructor
  · rintro ⟨fuel, ⟨given, m⟩, performed, answer, said, ⟨⟩⟩
    exact ⟨given, m, ⟨fuel, performed⟩, said, rfl⟩
  · rintro ⟨given, m, ⟨fuel, performed⟩, said, rfl⟩
    exact ⟨fuel, (given, m), performed, answer, said, rfl⟩

/-! ## Programs -/

theorem load_of_ok {source : String} {program : List Cell} (w : Workbench)
    (h : Listing.parse source = .ok program) :
    w.load source = (.ok program.length, ⟨program, .load program none⟩) := by
  rw [load, h]

theorem load_of_error {source : String} {e : ListingError} (w : Workbench)
    (h : Listing.parse source = .error e) : w.load source = (.error e, w) := by
  rw [load, h]

/-! ## What calls make of a workbench -/

/-- **A workbench holds what these calls have made of it.** -/
structure Keeps (calls : List Call) (w : Workbench) : Prop where
  program : w.program = lastProgram calls
  machine : ∃ given, (Machine.load (lastProgram calls) none).Session (operationsSince calls) given
    w.machine

/-- A call that brings the machine to the start of the program. -/
theorem Keeps.restart (restarts : call.restarts = true)
    (program : w.program = lastProgram (calls ++ [call]))
    (machine : w.machine = .load w.program none) : Keeps (calls ++ [call]) w := by
  refine ⟨program, [], ?_⟩
  rw [operationsSince_restart calls restarts, machine, program]
  exact .nil _

/-- A call that does no more than an operation of the machine. -/
theorem Keeps.goOn (keeps : Keeps calls w) (goesOn : call.restarts = false)
    (program : w'.program = w.program)
    (machine : ∃ given, w.machine.Session call.operation?.toList given w'.machine) :
    Keeps (calls ++ [call]) w' := by
  obtain ⟨before, session⟩ := keeps.machine
  obtain ⟨given, last⟩ := machine
  have same : lastProgram (calls ++ [call]) = lastProgram calls := by
    rw [lastProgram_concat, program?_of_restarts goesOn, Option.getD_none]
  refine ⟨by rw [program, keeps.program, same], before ++ given, ?_⟩
  rw [same, operationsSince_concat calls goesOn]
  exact session.append last

/-- **One call keeps it.** -/
theorem Keeps.perform (keeps : Keeps calls w) (performed : Returns (w.perform call) (answer, w')) :
    Keeps (calls ++ [call]) w' := by
  cases operation : call.operation? with
  | some o =>
    obtain ⟨given, m, operated, -, rfl⟩ := (returns_operation_iff operation).mp performed
    refine keeps.goOn (restarts_of_operation operation) rfl ⟨[given], ?_⟩
    rw [operation]
    exact .cons operated (.nil m)
  | none =>
    have stay (goesOn : call.restarts = false) (same : w' = w) : Keeps (calls ++ [call]) w' := by
      refine keeps.goOn goesOn (by rw [same]) ⟨[], ?_⟩
      rw [operation, same]
      exact .nil w.machine
    obtain ⟨_, performed⟩ := performed
    cases call with
    | load source =>
      cases parsed : Listing.parse source with
      | ok program =>
        rw [Workbench.perform, load_of_ok w parsed] at performed
        cases performed
        refine .restart (by rw [Call.restarts, parsed]; rfl) ?_ rfl
        rw [lastProgram_concat, Call.program?, parsed]
        rfl
      | error e =>
        rw [Workbench.perform, load_of_error w parsed] at performed
        cases performed
        exact stay (by rw [Call.restarts, parsed]; rfl) rfl
    | reset =>
      cases performed
      refine .restart rfl ?_ rfl
      rw [lastProgram_concat]
      exact keeps.program
    | ask =>
      cases performed
      exact stay rfl rfl
    | setInput | step | run | runToOutput => cases operation

theorem Session.keeps (session : Session calls answers w) : Keeps calls w := by
  induction session with
  | new => exact ⟨rfl, [], .nil _⟩
  | perform _ performed ih => exact ih.perform performed

/-! ## The statement -/

/-- What is asked is answered by the machine alone, and the text of its state reads as it. -/
inductive Tells (m : Machine) : Question → Answer → Prop
  | outputs : Tells m .outputs (.cells m.outputs.toList)
  | isHalted (holds : Bool) (h : holds = true ↔ m.status = .halted) :
      Tells m .isHalted (.flag holds)
  | counter : Tells m .counter (.cell m.counter)
  | base : Tells m .base (.cell m.base)
  | steps : Tells m .steps (.number m.steps)
  | memoryRange (start count : UInt64) : Tells m (.memoryRange start count)
      (.cells ((m.memory.dump start count).map Prod.snd))
  | stateText (text : String) (written : text = Snapshot.write .compact m)
      (reads : Snapshot.read? text = some m) : Tells m .stateText (.text text)

theorem tells_tell (w : Workbench) (question : Question) :
    Tells w.machine question (w.tell question) := by
  cases question with
  | outputs => exact .outputs
  | isHalted => exact .isHalted _ beq_iff_eq
  | counter => exact .counter
  | base => exact .base
  | steps => exact .steps
  | memoryRange start count => exact .memoryRange start count
  | stateText => exact .stateText _ rfl (Snapshot.read?_write .compact w.machine)

theorem Tells.eq_tell {question : Question} (tells : Tells w.machine question answer) :
    answer = w.tell question := by
  cases tells with
  | isHalted holds h =>
    exact congrArg Answer.flag (Bool.eq_iff_iff.mpr (h.trans beq_iff_eq.symm))
  | stateText text written => exact congrArg Answer.text written
  | _ => rfl

/-- **A workbench is the machine in it**, after these calls and in whatever call is next. -/
structure Wraps (calls : List Call) (w : Workbench) : Prop extends Keeps calls w where
  /-- There is no other machine that the operations lead to. -/
  unique : ∀ given m, (Machine.load (lastProgram calls) none).Session (operationsSince calls) given
    m → m = w.machine
  loads : ∀ source program, Listing.parse source = .ok program → ∀ answer w',
    Returns (w.perform (.load source)) (answer, w') ↔
      answer = .loaded (.ok program.length) ∧ w' = ⟨program, .load program none⟩
  /-- What is not read changes nothing, neither now nor when the workbench is reset. -/
  refuses : ∀ source e, Listing.parse source = .error e → ∀ answer w',
    Returns (w.perform (.load source)) (answer, w') ↔ answer = .loaded (.error e) ∧ w' = w
  resets : ∀ answer w', Returns (w.perform .reset) (answer, w') ↔
    answer = .done ∧ w' = ⟨lastProgram calls, .load (lastProgram calls) none⟩
  /-- An operation returns what the machine returns, and fails if it does. -/
  operates : ∀ call o, call.operation? = some o → ∀ answer w',
    Returns (w.perform call) (answer, w') ↔ ∃ given m, Returns (w.machine.perform o) (given, m) ∧
      told given = some answer ∧ answer.fails = given.fails ∧ w' = { w with machine := m }
  tells : ∀ question answer w', Returns (w.perform (.ask question)) (answer, w') ↔
    Tells w.machine question answer ∧ w' = w

/-- A call that runs no program returns at once. -/
theorem returns_iff_of_eq {r : Answer × Workbench} (h : ∀ fuel, w.perform call fuel = some r) :
    Returns (w.perform call) (answer, w') ↔ answer = r.1 ∧ w' = r.2 := by
  constructor
  · rintro ⟨fuel, returned⟩
    cases (h fuel).symm.trans returned
    exact ⟨rfl, rfl⟩
  · rintro ⟨rfl, rfl⟩
    exact ⟨0, h 0⟩

/-- **A workbench is the machine on the last program that could be read.**  Whatever calls have
been made of a new workbench, its machine is that of this program after the operations since it was
loaded or the workbench was reset; and whatever call is made next, it answers what this machine
answers, and fails when the machine does, or when there is a listing that cannot be read. -/
theorem session_wraps (session : Session calls answers w) : Wraps calls w := by
  have keeps := session.keeps
  obtain ⟨given, operated⟩ := keeps.machine
  exact
    { keeps with
      unique := fun _ _ other => (other.unique operated).2
      loads := fun source program parsed answer w' =>
        returns_iff_of_eq (r := (_, _)) fun _ => by rw [Workbench.perform, load_of_ok w parsed]
      refuses := fun source e parsed answer w' =>
        returns_iff_of_eq (r := (_, _)) fun _ => by rw [Workbench.perform, load_of_error w parsed]
      resets := fun answer w' =>
        returns_iff_of_eq (r := (_, _)) fun _ => by rw [Workbench.perform, reset, keeps.program]
      operates := by
        intro call o operation answer w'
        rw [returns_operation_iff operation]
        refine exists₂_congr fun given m => and_congr_right fun _ => ?_
        exact ⟨fun ⟨said, same⟩ => ⟨said, fails_of_told said, same⟩,
          fun ⟨said, _, same⟩ => ⟨said, same⟩⟩
      tells := by
        intro question answer w'
        rw [returns_iff_of_eq fun _ => rfl]
        refine and_congr_left fun _ => ⟨?_, Tells.eq_tell⟩
        rintro rfl
        exact tells_tell w question }

/-- A listing that cannot be read comes between a run and a reset. -/
theorem wraps_machine_without_input :
    ∃ answers w, Session [.load "3,0,4,0,99", .setInput 7, .run, .load "4,x", .reset, .step]
        answers w ∧
      answers.getLast? = some (.stepped (.error (.missingInput 0))) ∧ w.program = [3, 0, 4, 0, 99] ∧
      ∃ given, (Machine.load [3, 0, 4, 0, 99] none).Session [.step] given w.machine := by
  have loaded : Session ([] ++ [.load "3,0,4,0,99"]) ([] ++ [_]) _ := .perform .new ⟨0, rfl⟩
  have supplied : Session (_ ++ [.setInput 7]) (_ ++ [_]) _ := .perform loaded ⟨0, rfl⟩
  have ran : Session (_ ++ [.run]) (_ ++ [_]) _ := .perform supplied ⟨4, rfl⟩
  have refused : Session (_ ++ [.load "4,x"]) (_ ++ [_]) _ := .perform ran ⟨0, rfl⟩
  have again : Session (_ ++ [.reset]) (_ ++ [_]) _ := .perform refused ⟨0, rfl⟩
  have failed : Session (_ ++ [.step]) (_ ++ [_]) _ := .perform again ⟨0, rfl⟩
  have wraps := session_wraps failed
  exact ⟨_, _, failed, rfl, wraps.program, wraps.machine⟩

end Workbench
end IntcodeMachine
