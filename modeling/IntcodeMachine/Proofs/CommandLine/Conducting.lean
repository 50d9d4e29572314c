import IntcodeMachine.CommandLine.Execute
import IntcodeMachine.Proofs.Listing.Rendering
import IntcodeMachine.Proofs.Machine.Executing
import IntcodeMachine.Proofs.Snapshot.Lossless

/-! # A program that is run with inputs

What `run` does with a program and its inputs, told by the instructions that the
machine has executed (`Executed`) and without the session that conducts it.  Between
two instructions nothing changes but the input register (`Executes`), which holds the
input that is next or, if there are no more, the last one (`Course`).  So the input
instructions store the inputs in order.  The output is that of the machine, line by
line.  A run ends if and only if there is such a course to an end (`run_conducted`).

The register is never emptied, and it is filled again only after it has been read.
What carries this through a run is that the register and the inputs to come follow
from the number of input instructions so far (`Attended`).  One step keeps it
(`Attended.step`), and the rest is by induction on the steps.

A trace is written elsewhere than the output, so that a session whose errors are
left out does not depend on it (`run_quiet`).
-/
namespace IntcodeMachine

/-! ## Inputs and outputs -/

/-- The input after so many others, or the last one if there are no more. -/
def inputAfter (inputs : List Cell) (given : Nat) : Option Cell :=
  inputs[min given (inputs.length - 1)]?

/-- The integers in decimal, one on each line. -/
def decimalLines (values : List Cell) : String :=
  String.join (values.map fun value => toString value.toInt ++ "\n")

theorem Cell.text_eq_toString (c : Cell) : c.text = toString c.toInt := by
  rw [Cell.text, Decimal.text, Decimal.chars]
  cases c.toInt with
  | ofNat n =>
    rw [if_neg (show ¬ Int.ofNat n < 0 from Int.not_lt.mpr (Int.natCast_nonneg n))]
    rfl
  | negSucc n =>
    rw [if_pos (Int.negSucc_lt_zero n)]
    exact String.ofList_cons

theorem decimalLines_append (values values' : List Cell) :
    decimalLines (values ++ values') = decimalLines values ++ decimalLines values' := by
  rw [decimalLines, List.map_append, String.join_append]
  rfl

theorem decimalLines_singleton (value : Cell) : decimalLines [value] = value.text ++ "\n" := by
  rw [decimalLines, List.map_singleton, String.join_cons, ← Cell.text_eq_toString]
  exact String.append_empty

/-! ## Sessions without their errors -/

namespace Session

variable {s last : Session} {m : Machine} {i : Instruction} {fuel : Nat} {fault : Fault}
  {log : List Executed} {trace : Bool} {inputs : List Cell} {given : Nat}

/-- The session with no errors written. -/
def quiet (s : Session) : Session := { s with errors := "" }

theorem run_stopped (stopped : s.machine.status ≠ .running) :
    s.run trace fuel = some (.ok (), s) := by
  unfold run
  split
  · contradiction
  · rfl

theorem run_zero (running : s.machine.status = .running) : s.run trace 0 = none := by
  rw [run, running]

/-- What a trace adds to the errors. -/
def note (trace : Bool) (s : Session) : String :=
  if trace then s.errors ++ traceLine s.machine else s.errors

theorem run_ok (step : s.machine.step = (.ok i, m)) :
    s.run trace (fuel + 1) =
      (after { s with machine := m, errors := s.note trace } i).run trace fuel := by
  have running := Machine.running_of_step_ok step
  obtain ⟨machine, inputs, output, errors⟩ := s
  rw [run]
  simp only at running step
  simp only [running, step]
  rfl

theorem run_error (running : s.machine.status = .running)
    (step : s.machine.step = (.error fault, m)) :
    s.run trace (fuel + 1) =
      some (.error (s.machine.counter, fault),
        { s with machine := m, errors := s.note trace }) := by
  obtain ⟨machine, inputs, output, errors⟩ := s
  rw [run]
  simp only at running step
  simp only [running, step]
  rfl

theorem quiet_after : (s.after i).quiet = s.quiet.after i := by
  unfold after
  cases i.opcode with
  | input => cases inputs : s.inputs <;> simp only [quiet, inputs]
  | output => cases last : s.machine.channel.lastOutput <;> simp only [quiet, last]
  | _ => rfl

/-- **But for the errors that it writes, a session does not depend on the trace.** -/
theorem run_quiet (s : Session) (trace : Bool) (fuel : Nat) :
    (s.run trace fuel).map (fun (result, s') => (result, s'.quiet)) = s.quiet.run false fuel := by
  induction fuel generalizing s with
  | zero =>
    by_cases running : s.machine.status = .running
    · rw [run_zero running, run_zero (s := s.quiet) running]
      rfl
    · rw [run_stopped running, run_stopped (s := s.quiet) running]
      rfl
  | succ fuel ih =>
    by_cases running : s.machine.status = .running
    · cases step : s.machine.step with
      | mk result m =>
        cases result with
        | ok i =>
          rw [run_ok step, run_ok (s := s.quiet) step, ih, quiet_after]
          rfl
        | error fault =>
          rw [run_error running step, run_error (s := s.quiet) running step]
          rfl
    · rw [run_stopped running, run_stopped (s := s.quiet) running]
      rfl

theorem report_quiet (dumpState : Bool) (result : Except (Cell × Fault) Unit) (s : Session) :
    (report dumpState (result, s)).output = (report dumpState (result, s.quiet)).output ∧
      (report dumpState (result, s)).status = (report dumpState (result, s.quiet)).status := by
  cases result <;> exact ⟨rfl, rfl⟩

/-! ## Steps of a session -/

/-- **The session goes on by executing these instructions.** -/
inductive Steps : Session → List Executed → Session → Prop
  | nil (s : Session) : Steps s [] s
  | cons {s last : Session} {m : Machine} {i : Instruction} {log : List Executed}
      (step : s.machine.step = (.ok i, m))
      (rest : Steps (after { s with machine := m } i) log last) :
      Steps s (⟨s.machine, i, m⟩ :: log) last

/-- **The session ends here**, since the machine has halted or its next step fails. -/
inductive Ends (s : Session) : Except (Cell × Fault) Unit × Session → Prop
  | halted (halted : s.machine.status = .halted) : Ends s (.ok (), s)
  | failed {fault : Fault} {m : Machine} (running : s.machine.status = .running)
      (step : s.machine.step = (.error fault, m)) :
      Ends s (.error (s.machine.counter, fault), { s with machine := m })

theorem status_after : (s.after i).machine.status = s.machine.status := by
  unfold after
  cases i.opcode with
  | input => cases s.inputs <;> rfl
  | output => cases s.machine.channel.lastOutput <;> rfl
  | _ => rfl

theorem steps_of_stopped {r : Except (Cell × Fault) Unit × Session}
    (sound : s.machine.status ≠ .faulted) (stopped : s.machine.status ≠ .running)
    (ran : s.run false fuel = some r) : ∃ log last, s.Steps log last ∧ last.Ends r := by
  rw [run_stopped stopped] at ran
  obtain rfl := Option.some.inj ran
  refine ⟨[], s, .nil s, .halted ?_⟩
  cases status : s.machine.status with
  | halted => rfl
  | running | faulted => contradiction

/-- **A run is made of the steps that execute an instruction, and ends after them.** -/
theorem steps_of_run {r : Except (Cell × Fault) Unit × Session}
    (sound : s.machine.status ≠ .faulted) (ran : s.run false fuel = some r) :
    ∃ log last, s.Steps log last ∧ last.Ends r := by
  induction fuel generalizing s with
  | zero =>
    by_cases running : s.machine.status = .running
    · rw [run_zero running] at ran
      cases ran
    · exact steps_of_stopped sound running ran
  | succ fuel ih =>
    by_cases running : s.machine.status = .running
    · cases step : s.machine.step with
      | mk result m =>
        cases result with
        | ok i =>
          have sound' := Machine.not_faulted_of_step_ok step
          rw [run_ok step] at ran
          obtain ⟨log, last, rest, ends⟩ := ih (by rwa [status_after]) ran
          exact ⟨_, last, .cons step rest, ends⟩
        | error fault =>
          rw [run_error running step] at ran
          cases ran
          exact ⟨[], s, .nil s, .failed running step⟩
    · exact steps_of_stopped sound running ran

/-! ## What a session attends to -/

/-- **The session after a number of input instructions.** The input with this number waits in the
register, or the last one if there are no more; and all that the machine has put out is written. -/
structure Attended (inputs : List Cell) (given : Nat) (s : Session) : Prop where
  register : s.machine.channel.input = inputAfter inputs given
  remaining : s.inputs = inputs.drop (given + 1)
  written : s.output = decimalLines s.machine.outputs.toList

theorem attended_load (program inputs : List Cell) : Attended inputs 0 (load program inputs) where
  register := by
    rw [inputAfter, Nat.zero_min, ← List.head?_eq_getElem?]
    rfl
  remaining := List.drop_one.symm
  written := rfl

theorem after_input_next (asks : i.opcode = .input) {value : Cell} {rest : List Cell}
    (inputs : s.inputs = value :: rest) :
    s.after i = { s with machine := s.machine.setInput value, inputs := rest } := by
  simp only [after, asks, inputs]

theorem after_input_none (asks : i.opcode = .input) (inputs : s.inputs = []) :
    s.after i = s := by
  simp only [after, asks, inputs]

theorem after_output (puts : i.opcode = .output) {value : Cell}
    (newest : s.machine.channel.lastOutput = some value) :
    s.after i = { s with output := s.output ++ value.text ++ "\n" } := by
  simp only [after, puts, newest]

theorem after_other (asks : i.opcode ≠ .input) (puts : i.opcode ≠ .output) : s.after i = s := by
  unfold after
  cases o : i.opcode with
  | input | output => contradiction
  | _ => rfl

theorem sameButInput_after (s : Session) (i : Instruction) :
    s.machine.SameButInput (s.after i).machine := by
  unfold after
  cases i.opcode with
  | input => cases s.inputs <;> exact ⟨rfl, rfl, rfl, rfl, rfl, rfl, rfl⟩
  | output => cases s.machine.channel.lastOutput <;> exact ⟨rfl, rfl, rfl, rfl, rfl, rfl, rfl⟩
  | _ => exact ⟨rfl, rfl, rfl, rfl, rfl, rfl, rfl⟩

namespace Attended

theorem input (attended : Attended inputs given s) (step : s.machine.step = (.ok i, m))
    (asks : i.opcode = .input) : Attended inputs (given + 1) (after { s with machine := m } i) := by
  have register : m.channel.input = inputAfter inputs given :=
    (Machine.performs_of_step_ok step).2.input.trans attended.register
  have written : s.output = decimalLines m.outputs.toList := by
    rw [Machine.outputs_of_other step (by rw [asks]; decide)]
    exact attended.written
  by_cases more : given + 1 < inputs.length
  · have remaining : s.inputs = inputs[given + 1] :: inputs.drop (given + 1 + 1) :=
      attended.remaining.trans (List.drop_eq_getElem_cons more)
    rw [after_input_next (s := { s with machine := m }) asks remaining]
    refine ⟨?_, rfl, written⟩
    rw [inputAfter, show min (given + 1) (inputs.length - 1) = given + 1 by omega,
      List.getElem?_eq_getElem more]
    rfl
  · -- The last input stays in the register.
    have none_left : s.inputs = [] :=
      attended.remaining.trans (List.drop_eq_nil_of_le (Nat.not_lt.mp more))
    rw [after_input_none (s := { s with machine := m }) asks none_left]
    refine ⟨?_, ?_, written⟩
    · rw [register, inputAfter, inputAfter]
      congr 1
      omega
    · rw [List.drop_eq_nil_of_le (by omega)]
      exact none_left

theorem output (attended : Attended inputs given s) (step : s.machine.step = (.ok i, m))
    (puts : i.opcode = .output) : Attended inputs given (after { s with machine := m } i) := by
  have outputs := Machine.outputs_of_output step puts
  have newest : m.channel.lastOutput = some (s.machine.value i 0) := by
    show m.outputs.back? = _
    rw [← Array.getLast?_toList, outputs, List.getLast?_concat]
  rw [after_output puts newest]
  refine ⟨(Machine.performs_of_step_ok step).2.input.trans attended.register,
    attended.remaining, ?_⟩
  show s.output ++ _ ++ _ = decimalLines m.outputs.toList
  rw [outputs, decimalLines_append, decimalLines_singleton, attended.written, String.append_assoc]

theorem other (attended : Attended inputs given s) (step : s.machine.step = (.ok i, m))
    (asks : i.opcode ≠ .input) (puts : i.opcode ≠ .output) :
    Attended inputs given (after { s with machine := m } i) := by
  rw [after_other asks puts]
  refine ⟨(Machine.performs_of_step_ok step).2.input.trans attended.register,
    attended.remaining, ?_⟩
  show s.output = decimalLines m.outputs.toList
  rw [Machine.outputs_of_other step puts]
  exact attended.written

/-- **One step keeps it.** -/
theorem step (attended : Attended inputs given s) (step : s.machine.step = (.ok i, m)) :
    Attended inputs (if i.opcode = .input then given + 1 else given)
      (after { s with machine := m } i) := by
  by_cases asks : i.opcode = .input
  · rw [if_pos asks]
    exact attended.input step asks
  · rw [if_neg asks]
    by_cases puts : i.opcode = .output
    · exact attended.output step puts
    · exact attended.other step asks puts

end Attended

namespace Steps

theorem executes (steps : s.Steps log last) : s.machine.Executes log last.machine := by
  induction steps with
  | nil s => exact .nil _
  | @cons s _ m i _ step _ ih => exact .cons step (sameButInput_after { s with machine := m } i) ih

/-- Whichever machine is reached, its register holds the input that is next. -/
theorem supplied (steps : s.Steps log last) (attended : Attended inputs given s) {k : Nat}
    {m : Machine} (reached : (log.map Executed.before ++ [last.machine])[k]? = some m) :
    m.channel.input = inputAfter inputs (given + (log.take k).countP Executed.isInput) := by
  induction steps generalizing given k with
  | nil s =>
    cases k with
    | zero =>
      obtain rfl := Option.some.inj reached
      exact attended.register
    | succ k => cases reached
  | @cons s last m₁ i log step _ ih =>
    cases k with
    | zero =>
      obtain rfl := Option.some.inj reached
      exact attended.register
    | succ k =>
      rw [ih (attended.step step) reached, Executed.count_take_cons]

theorem attended (steps : s.Steps log last) (attended : Attended inputs given s) :
    ∃ given', Attended inputs given' last := by
  induction steps generalizing given with
  | nil s => exact ⟨given, attended⟩
  | cons step _ ih => exact ih (attended.step step)

/-- **The input instructions store the inputs in order**, and then the last one over and over. -/
theorem feeds (steps : s.Steps log last) (attended : Attended inputs given s) {j : Nat}
    {e : Executed} (nth : (log.filter Executed.isInput)[j]? = some e) :
    ∃ value, inputAfter inputs (given + j) = some value ∧ e.Stores value := by
  induction steps generalizing given j with
  | nil s => cases nth
  | @cons s last m i log step _ ih =>
    have attended' := attended.step step
    by_cases asks : i.opcode = .input
    · rw [if_pos asks] at attended'
      rw [List.filter_cons_of_pos (Executed.isInput_iff.mpr asks)] at nth
      cases j with
      | zero =>
        obtain rfl := Option.some.inj nth
        obtain ⟨value, register, stores⟩ := Machine.stores_of_step_ok step asks
        exact ⟨value, attended.register.symm.trans register, stores⟩
      | succ j =>
        rw [Nat.add_succ, ← Nat.succ_add]
        exact ih attended' nth
    · rw [if_neg asks] at attended'
      rw [List.filter_cons_of_neg (mt Executed.isInput_iff.mp asks)] at nth
      exact ih attended' nth

/-- The steps are those of a run, as long as there is fuel for them. -/
theorem run (steps : s.Steps log last) {r : Except (Cell × Fault) Unit × Session}
    (ends : last.Ends r) : s.run false (log.length + 1) = some r := by
  induction steps with
  | nil s =>
    cases ends with
    | halted halted => exact run_stopped (by rw [halted]; exact Status.noConfusion)
    | failed running step => exact run_error running step
  | cons step _ ih =>
    rw [List.length_cons, run_ok step]
    exact ih ends

end Steps

/-- **A machine that is supplied like a session goes on like this session.** -/
theorem steps_of_executes {n : Machine} (attended : Attended inputs given s)
    (executes : s.machine.Executes log n)
    (supplied : ∀ k m, (log.map Executed.before ++ [n])[k]? = some m →
      m.channel.input = inputAfter inputs (given + (log.take k).countP Executed.isInput)) :
    ∃ last, s.Steps log last ∧ last.machine = n := by
  generalize start : s.machine = m at executes
  induction executes generalizing s given with
  | nil m => exact ⟨s, .nil s, start⟩
  | @cons m m' n last i log step refilled rest ih =>
    subst start
    have attended' := attended.step step
    have supplied' : ∀ k m, (log.map Executed.before ++ [last])[k]? = some m →
        m.channel.input = inputAfter inputs
          ((if i.opcode = .input then given + 1 else given) +
            (log.take k).countP Executed.isInput) := by
      intro k m reached
      rw [supplied (k + 1) m reached, Executed.count_take_cons]
    -- Session and machine can differ in the register only, and both have it from the inputs.
    have same : (after { s with machine := m' } i).machine.SameButInput n :=
      Machine.sameButInput_iff.mpr
        ((Machine.sameButInput_iff.mp (sameButInput_after { s with machine := m' } i)).symm.trans
          (Machine.sameButInput_iff.mp refilled))
    have register : (after { s with machine := m' } i).machine.channel.input = n.channel.input :=
      attended'.register.trans (supplied' 0 n rest.reaches_first).symm
    obtain ⟨last', steps, ends_at⟩ := ih attended' supplied' (same.eq_of_input register)
    exact ⟨last', .cons step steps, ends_at⟩

end Session

/-! ## The statement -/

namespace CommandLine

/-- **The course of a program that is run to its end.** The log holds the instructions that are
executed, `last` is the machine after them, and `final` the machine in the end. -/
structure Course (program inputs : List Cell) (log : List Executed) (last final : Machine) :
    Prop where
  executes : (Machine.load program inputs.head?).Executes log last
  /-- After so many input instructions the register holds the input that is next. -/
  supplied : ∀ k m, (log.map Executed.before ++ [last])[k]? = some m →
    m.channel.input = inputAfter inputs ((log.take k).countP Executed.isInput)
  /-- The machine has halted, or its next step fails. -/
  ends : last.status = .halted ∧ final = last ∨
    last.status = .running ∧ ∃ fault, last.step = (.error fault, final)

/-- **What is reported of a program that has been run.** -/
structure Conducted (program inputs : List Cell) (dumpState : Bool) (report : Report)
    (log : List Executed) (last final : Machine) : Prop
    extends Course program inputs log last final where
  /-- The input instructions store the inputs in order, and then the last one over and over. -/
  feeds : ∀ j e, (log.filter Executed.isInput)[j]? = some e →
    ∃ value, inputAfter inputs j = some value ∧ e.Stores value
  /-- Without any inputs, the first input instruction that is reached is the end. -/
  starves : inputs = [] →
    (∀ e ∈ log, ¬ e.before.ReadsInput) ∧ (last.ReadsInput → report.status = 1)
  status : report.status = if final.status = .halted then 0 else 1
  /-- When the machine has halted, all its outputs are written, and then its snapshot. -/
  halted : final.status = .halted → ∃ json, Snapshot.read? json = some final ∧
    report.output = decimalLines final.outputs.toList ++ if dumpState then json ++ "\n" else ""
  /-- After a failure, what the steps before it have put out is written. -/
  failed : final.status ≠ .halted → report.output = decimalLines (log.flatMap Executed.emitted)

variable {program inputs : List Cell} {dumpState trace : Bool} {fuel : Nat}
  {report report' : Report} {path : String} {files : String → Except ReadFailure ByteArray}
  {log : List Executed}

theorem Conducted.of_same {last final : Machine}
    (conducted : Conducted program inputs dumpState report log last final)
    (output : report'.output = report.output) (status : report'.status = report.status) :
    Conducted program inputs dumpState report' log last final where
  toCourse := conducted.toCourse
  feeds := conducted.feeds
  starves := by
    rw [status]
    exact conducted.starves
  status := status.trans conducted.status
  halted := by
    rw [output]
    exact conducted.halted
  failed := by
    rw [output]
    exact conducted.failed

/-- Where there is nothing to store, no input instruction has been executed. -/
theorem not_readsInput_of_feeds {m last : Machine} (executes : m.Executes log last)
    (feeds : ∀ j e, (log.filter Executed.isInput)[j]? = some e →
      ∃ value, inputAfter [] j = some value ∧ e.Stores value) :
    ∀ e ∈ log, ¬ e.before.ReadsInput := by
  intro e mem reads
  have asks := Machine.input_of_readsInput (executes.step_of_mem mem) reads
  have mem' : e ∈ log.filter Executed.isInput :=
    List.mem_filter.mpr ⟨mem, Executed.isInput_iff.mpr asks⟩
  obtain ⟨j, nth⟩ := List.mem_iff_getElem?.mp mem'
  obtain ⟨value, given, -⟩ := feeds j e nth
  cases given

theorem conducted_of_steps {last : Session} {r : Except (Cell × Fault) Unit × Session}
    (steps : (Session.load program inputs).Steps log last) (ends : last.Ends r) :
    Conducted program inputs dumpState (Session.report dumpState r) log last.machine
      r.2.machine := by
  have loaded := Session.attended_load program inputs
  have executes : (Machine.load program inputs.head?).Executes log last.machine := steps.executes
  have supplied : ∀ k m, (log.map Executed.before ++ [last.machine])[k]? = some m →
      m.channel.input = inputAfter inputs ((log.take k).countP Executed.isInput) := by
    intro k m reached
    have := steps.supplied loaded reached
    rwa [Nat.zero_add] at this
  have feeds : ∀ j e, (log.filter Executed.isInput)[j]? = some e →
      ∃ value, inputAfter inputs j = some value ∧ e.Stores value := by
    intro j e nth
    have := steps.feeds loaded nth
    rwa [Nat.zero_add] at this
  have idle : inputs = [] → ∀ e ∈ log, ¬ e.before.ReadsInput := by
    rintro rfl
    exact not_readsInput_of_feeds executes feeds
  obtain ⟨given, attended⟩ := steps.attended loaded
  cases ends with
  | halted halted =>
    exact {
      executes
      supplied
      ends := .inl ⟨halted, rfl⟩
      feeds
      starves := fun none_given =>
        ⟨idle none_given, fun ⟨running, _⟩ => Status.noConfusion (halted.symm.trans running)⟩
      status := (if_pos halted).symm
      halted := fun _ => ⟨_, Snapshot.read?_write .indented last.machine, by
        rw [← attended.written]
        rfl⟩
      failed := fun unhalted => (unhalted halted).elim }
  | @failed fault m running step =>
    have faulted : m.status = .faulted :=
      Machine.faulted_of_step_error (by rw [running]; exact Status.noConfusion) step
    have outputs : last.machine.outputs.toList = log.flatMap Executed.emitted := executes.outputs
    have unhalted : m.status ≠ .halted := by
      rw [faulted]
      exact Status.noConfusion
    exact {
      executes
      supplied
      ends := .inr ⟨running, fault, step⟩
      feeds
      starves := fun none_given => ⟨idle none_given, fun _ => rfl⟩
      status := (if_neg unhalted).symm
      halted := fun halted => (unhalted halted).elim
      failed := fun _ => by
        rw [← outputs, ← attended.written]
        rfl }

/-- A program that has a course is run along it. -/
theorem Course.steps {last final : Machine} (course : Course program inputs log last final) :
    ∃ last' r, (Session.load program inputs).Steps log last' ∧ last'.Ends r ∧
      last'.machine = last ∧ r.2.machine = final := by
  have loaded := Session.attended_load program inputs
  obtain ⟨last', steps, rfl⟩ :=
    Session.steps_of_executes loaded course.executes fun k m reached => by
      rw [Nat.zero_add]
      exact course.supplied k m reached
  rcases course.ends with ⟨halted, rfl⟩ | ⟨running, fault, step⟩
  · exact ⟨last', _, steps, .halted halted, rfl, rfl⟩
  · exact ⟨last', _, steps, .failed running step, rfl, rfl⟩

theorem execute_run (loaded : Listing.load (files path) = .ok program) :
    execute fuel files (.run path inputs trace dumpState) =
      ((Session.load program inputs).run trace fuel).map (Session.report dumpState) := by
  simp only [execute, withProgram, loaded]

/-- Whatever is traced, a session comes to the same end if its errors are left out. -/
theorem report_of_run_quiet {s : Session} {r : Except (Cell × Fault) Unit × Session}
    (ran : s.quiet.run false fuel = some r) (trace : Bool) :
    ∃ report, (s.run trace fuel).map (Session.report dumpState) = some report ∧
      report.output = (Session.report dumpState r).output ∧
      report.status = (Session.report dumpState r).status := by
  rw [← s.run_quiet trace fuel] at ran
  obtain ⟨⟨result, s'⟩, ran', rfl⟩ := Option.map_eq_some_iff.mp ran
  rw [ran']
  exact ⟨_, rfl, Session.report_quiet dumpState result s'⟩

/-- **Running a program feeds it the inputs in order and writes exactly what it puts out**, whatever
the program and the inputs, whenever the run ends; and a trace changes neither what is written nor
the status.  The run ends if there is a course to an end, and it is this course that it takes. -/
theorem run_conducted (loaded : Listing.load (files path) = .ok program) (inputs : List Cell)
    (trace dumpState : Bool) :
    (∀ fuel report, execute fuel files (.run path inputs trace dumpState) = some report →
      (∃ log last final, Conducted program inputs dumpState report log last final) ∧
      ∀ trace', ∃ report', execute fuel files (.run path inputs trace' dumpState) = some report' ∧
        report'.output = report.output ∧ report'.status = report.status) ∧
    ∀ log last final, Course program inputs log last final →
      ∃ fuel report, execute fuel files (.run path inputs trace dumpState) = some report ∧
        Conducted program inputs dumpState report log last final := by
  simp only [execute_run loaded]
  constructor
  · intro fuel report ended
    obtain ⟨⟨result, s⟩, ran, rfl⟩ := Option.map_eq_some_iff.mp ended
    obtain ⟨output, status⟩ := Session.report_quiet dumpState result s
    have quiet_ran :
        (Session.load program inputs).quiet.run false fuel = some (result, s.quiet) := by
      rw [← Session.run_quiet _ trace, ran]
      rfl
    constructor
    · obtain ⟨log, last, steps, ends⟩ := Session.steps_of_run Status.noConfusion quiet_ran
      exact ⟨log, _, _, (conducted_of_steps steps ends).of_same output status⟩
    · intro trace'
      obtain ⟨report', ran', output', status'⟩ := report_of_run_quiet quiet_ran trace'
      exact ⟨report', ran', output'.trans output.symm, status'.trans status.symm⟩
  · intro log last final course
    obtain ⟨last', r, steps, ends, rfl, rfl⟩ := course.steps
    obtain ⟨report, ran, output, status⟩ :=
      report_of_run_quiet (s := Session.load program inputs) (steps.run ends) trace
    exact ⟨_, report, ran, (conducted_of_steps steps ends).of_same output status⟩

/-- A program that puts out each of three inputs. -/
def echoProgram : List Cell := [3, 50, 4, 50, 3, 50, 4, 50, 3, 50, 4, 50, 99]

/-- A file with this program. -/
def echoFile (_ : String) : Except ReadFailure ByteArray :=
  .ok "3,50,4,50,3,50,4,50,3,50,4,50,99".toUTF8

/-- Three inputs are put out, but only two are given. -/
theorem run_repeats_last_input :
    ∃ report log last final, Listing.load (echoFile "echo.ic") = .ok echoProgram ∧
      execute 7 echoFile (.run "echo.ic" [7, -8] true false) = some report ∧
      report.output = "7\n-8\n-8\n" ∧
      Conducted echoProgram [7, -8] false report log last final := by
  have loaded : Listing.load (echoFile "echo.ic") = .ok echoProgram := by
    rw [echoFile, Listing.load_toUTF8]
    decide
  obtain ⟨report, ended, output⟩ : ∃ report,
      execute 7 echoFile (.run "echo.ic" [7, -8] true false) = some report ∧
        report.output = "7\n-8\n-8\n" := by
    rw [execute_run loaded]
    exact ⟨_, rfl, by decide⟩
  obtain ⟨conducts, -⟩ := run_conducted loaded [7, -8] true false
  obtain ⟨⟨log, last, final, conducted⟩, -⟩ := conducts 7 report ended
  exact ⟨report, log, last, final, loaded, ended, output, conducted⟩

end CommandLine
end IntcodeMachine
