import IntcodeMachine.Proofs.Machine.Running

/-! # Sessions with a machine

Whoever has a machine can step it, run it to its end or to its next output, change
what is in its input register, and write into its memory.  A `Session` is a
sequence of such operations together with what they have answered.  An operation
that does not return is the last of no session.  Sessions are deterministic
(`Session.unique`), because runs are steady.
-/
namespace IntcodeMachine
namespace Machine

/-- What can be done with a machine from outside. -/
inductive Operation
  | step
  | run
  | runToOutput
  | setInput (value : Cell)
  | clearInput
  | write (address value : Cell)
deriving DecidableEq

/-- What an operation answers. -/
inductive Answer
  | stepped (result : Except Fault Instruction)
  | ran (result : Except Fault UInt64)
  | surfaced (result : Except Fault Outcome)
  | done
  | refused (error : AddressError)

variable {m m' : Machine}

/-- The answer of an operation and the machine after it, if `fuel` steps are enough. -/
def perform (m : Machine) (o : Operation) (fuel : Nat) : Option (Answer × Machine) :=
  match o with
  | .step => some (.stepped m.step.1, m.step.2)
  | .run => (m.run fuel).map fun r => (.ran r.1, r.2)
  | .runToOutput => (m.runToOutput fuel).map fun r => (.surfaced r.1, r.2)
  | .setInput value => some (.done, m.setInput value)
  | .clearInput => some (.done, m.clearInput)
  | .write address value =>
    match m.poke address value with
    | .ok m' => some (.done, m')
    | .error e => some (.refused e, m)

theorem steady_perform (m : Machine) (o : Operation) : Steady (m.perform o) := by
  cases o with
  | run =>
    exact m.steady_run.map _
  | runToOutput =>
    exact m.steady_runToOutput.map _
  | _ => exact fun _ _ h => h

/-- The operations, one after the other, give these answers and leave this machine. -/
inductive Session : Machine → List Operation → List Answer → Machine → Prop
  | nil (m : Machine) : Session m [] [] m
  | cons {m m' m'' : Machine} {o : Operation} {answer : Answer} {operations : List Operation}
      {answers : List Answer} (first : Returns (m.perform o) (answer, m'))
      (rest : Session m' operations answers m'') :
      Session m (o :: operations) (answer :: answers) m''

/-- **The operations decide the answers and the machine they leave.** -/
theorem Session.unique {operations : List Operation} {answers answers' : List Answer}
    {m m' m'' : Machine} (h : Session m operations answers m')
    (h' : Session m operations answers' m'') : answers = answers' ∧ m' = m'' := by
  induction h generalizing answers' with
  | nil m =>
    cases h'
    exact ⟨rfl, rfl⟩
  | @cons m _ _ o _ _ _ first _ ih =>
    cases h' with
    | cons first' rest' =>
      -- The first operation leaves one machine only, from which both sessions go on.
      cases (m.steady_perform o).unique first first'
      obtain ⟨rfl, rfl⟩ := ih rest'
      exact ⟨rfl, rfl⟩

end Machine
end IntcodeMachine
