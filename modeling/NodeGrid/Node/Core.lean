import NodeGrid.Assembly.Compile

/-!
# The core of a node

A core is a program with its source text and the registers that the program works on.  The program
counter always names an instruction, or is zero when there is none.
-/

namespace NodeGrid

open Assembly

/-- The registers: accumulator, backup, program counter, and the port that the last read or write
through any port used. -/
structure Registers where
  acc : Word
  bak : Word
  pc : Nat
  last : Option Port
  deriving DecidableEq, Repr

/-- The registers before the first instruction. -/
def Registers.initial : Registers :=
  ⟨0, 0, 0, none⟩

/-- A program, the text it was compiled from, and the registers. -/
structure Core where
  program : Program
  source : List (List Char)
  registers : Registers
  deriving DecidableEq, Repr

namespace Core

/-- The core without program and text. -/
def empty : Core :=
  ⟨.empty, [], .initial⟩

/-- Put the registers back to their initial values. -/
def resetRegisters (core : Core) : Core :=
  { core with registers := .initial }

/-- Drop the program and reset the registers, but keep the text. -/
def clearProgram (core : Core) : Core :=
  { core with program := .empty }.resetRegisters

/-- Drop the program and the text and reset the registers. -/
def clear (core : Core) : Core :=
  { core.clearProgram with source := [] }

/-- Set the accumulator to the nearest word in range. -/
def setAcc (core : Core) (value : Word) : Core :=
  { core with registers.acc := Word.saturate value.toInt32 }

/-- Set the backup register to the nearest word in range. -/
def setBak (core : Core) (value : Word) : Core :=
  { core with registers.bak := Word.saturate value.toInt32 }

/-- The instruction about to be run. -/
def instruction? (core : Core) : Option Instruction :=
  core.program.instruction? core.registers.pc

/-- The source line of the instruction about to be run. -/
def line? (core : Core) : Option Nat :=
  core.program.line? core.registers.pc

/-- Go on at an instruction; outside the program that is the first one. -/
def jump (core : Core) (index : Nat) : Core :=
  { core with registers.pc := if index < core.program.size then index else 0 }

/-- Go on at the next instruction, from the last one to the first. -/
def advance (core : Core) : Core :=
  core.jump (core.registers.pc + 1)

/-- Go on a number of instructions further, around the ends of the program. -/
def jumpBy (core : Core) (offset : Word) : Core :=
  if core.program.size = 0 then { core with registers.pc := 0 }
  else
    { core with
      registers.pc := ((core.registers.pc + offset.toInt) % (core.program.size : Int)).toNat }

/-- Replace program and text by the result of compiling; the registers are reset.  If compiling
fails there is no program. -/
def compile (core : Core) (capacity limits : Extent) (source : List (List Char)) :
    Except CompileError Unit × Core :=
  let compilation := Assembly.compile capacity limits source
  let cleared := { core.clear with source := compilation.kept }
  match compilation.outcome with
  | .ok program => (.ok (), { cleared with program })
  | .error error => (.error error, cleared)

/-- Let the jump at a position go where a reference says. -/
def redirect (core : Core) (position : Nat) (reference : Reference) :
    Except CompileError Unit × Core :=
  match core.program.redirect position reference with
  | .ok program => (.ok (), { core with program })
  | .error error => (.error error, core)

end Core

end NodeGrid
