import IntcodeMachine.Channel
import IntcodeMachine.Instruction.Decode
import IntcodeMachine.Memory.Basic

/-!
# The machine

A machine is its memory, its channel and a few registers. It runs until it
halts or an instruction fails; a fault says why.
-/
namespace IntcodeMachine

/-- Whether the machine takes further steps. -/
inductive Status
  | running
  | halted
  | faulted
deriving DecidableEq, Repr

/-- The name of a status. -/
def Status.name : Status → String
  | .running => "Running"
  | .halted => "Halted"
  | .faulted => "Faulted"

/-- Why a step fails. -/
inductive Fault
  | notRunning (status : Status)
  | address (error : AddressError)
  | decode (error : DecodeError)
  | missingInput (counter : Cell)
  | overflow
deriving DecidableEq, Repr

/-- The wording of a fault. -/
def Fault.message : Fault → String
  | .notRunning status => "VM not running: " ++ status.name
  | .address error => "memory error: " ++ error.message
  | .decode error => "decode error: " ++ error.message
  | .missingInput counter => "input instruction at " ++ counter.text ++ " with no pending input"
  | .overflow => "arithmetic overflow"

/-- A machine: memory, channel, program counter, relative base, status, the number of
instructions executed (modulo 2^64) and the most recent of them. -/
structure Machine where
  memory : Memory := {}
  channel : Channel := {}
  counter : Cell := 0
  base : Cell := 0
  status : Status := .running
  steps : UInt64 := 0
  last : Option Instruction := none
deriving DecidableEq

namespace Machine

/-- A machine at the start of a program, with a value in its input register or none. -/
def load (image : List Cell) (input : Option Cell) : Machine where
  memory := .ofImage image
  channel := { input }

/-- The machine with a value in its input register. -/
def setInput (m : Machine) (value : Cell) : Machine :=
  { m with channel := m.channel.setInput value }

/-- The machine with an empty input register. -/
def clearInput (m : Machine) : Machine := { m with channel := m.channel.clearInput }

/-- Writes into the memory of the machine from outside. -/
def poke (m : Machine) (address value : Cell) : Except AddressError Machine :=
  (Memory.addressOf address).map fun a =>
    let ⟨memory, channel, counter, base, status, steps, last⟩ := m
    ⟨memory.set a value, channel, counter, base, status, steps, last⟩

/-- The outputs so far. -/
def outputs (m : Machine) : Array Cell := m.channel.outputs

/-- The machine on one line. -/
def summary (m : Machine) : String :=
  "Vm \x7b state: " ++ m.status.name ++ ", pc: " ++ m.counter.text ++
    ", relative_base: " ++ m.base.text ++ ", steps: " ++ Decimal.text m.steps.toNat ++
    ", outputs: " ++ Decimal.text m.outputs.size ++ ", mem: " ++ m.memory.summary ++ " \x7d"

end Machine
end IntcodeMachine
