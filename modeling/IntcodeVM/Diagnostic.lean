import IntcodeVM.Cpu.Step

/-!
Error reports. Whatever fails, its report is of one of a few kinds, with a wording and the places
that it is about. The kinds form a small tree: three kinds of machine fault under the general fault,
and all kinds of the machine itself under one root. Beside the tree stand bad arguments, searches
without a result, and the bounds of the machine underneath.
-/

namespace IntcodeVM

inductive Diagnostic where
  | general (text : String)
  | load (index : Int) (detail : String)
  | fault (text : String) (ip : Option Int)
  | decoding (text : String) (ip : Option Int)
  | addressing (addr : Int) (text : String) (ip : Option Int)
  | port (text : String) (ip : Option Int)
  | refusal (text : String)
  | circuit (text : String) (stage : Option Int)
  | assembly (line : Int) (detail : String)
  /-- An argument outside its range. -/
  | badValue (text : String)
  | notFound (text : String)
  /-- Something that is no number where one is needed. -/
  | mismatch (text : String)
  /-- A number beyond what the machine underneath can count. -/
  | overflow (text : String)
  | exhausted (text : String)
  /-- A number that does not fit into its field of a record. -/
  | packing (text : String)
  /-- A text that a narrower alphabet cannot write. -/
  | unwritable (text : String)
  | breakdown (text : String)
  deriving DecidableEq, Repr

namespace Diagnostic

inductive Kind where
  | general
  | load
  | fault
  | decoding
  | addressing
  | port
  | refusal
  | circuit
  | assembly
  | badValue
  | notFound
  | mismatch
  | overflow
  | exhausted
  | packing
  | unwritable
  | breakdown
  deriving DecidableEq, Repr

/-- A kind and the kinds above it, up to the root. -/
def Kind.lineage : Kind → List Kind
  | .general => [.general]
  | .load => [.load, .general]
  | .fault => [.fault, .general]
  | .decoding => [.decoding, .fault, .general]
  | .addressing => [.addressing, .fault, .general]
  | .port => [.port, .fault, .general]
  | .refusal => [.refusal, .general]
  | .circuit => [.circuit, .general]
  | .assembly => [.assembly, .general]
  | .badValue => [.badValue]
  | .notFound => [.notFound]
  | .mismatch => [.mismatch]
  | .overflow => [.overflow]
  | .exhausted => [.exhausted]
  | .packing => [.packing]
  | .unwritable => [.unwritable]
  | .breakdown => [.breakdown]

def kind : Diagnostic → Kind
  | general .. => .general
  | load .. => .load
  | fault .. => .fault
  | decoding .. => .decoding
  | addressing .. => .addressing
  | port .. => .port
  | refusal .. => .refusal
  | circuit .. => .circuit
  | assembly .. => .assembly
  | badValue .. => .badValue
  | notFound .. => .notFound
  | mismatch .. => .mismatch
  | overflow .. => .overflow
  | exhausted .. => .exhausted
  | packing .. => .packing
  | unwritable .. => .unwritable
  | breakdown .. => .breakdown

/-- The whole wording, with the place where the kind puts it. -/
def message : Diagnostic → String
  | general text | refusal text | circuit text _ | badValue text | notFound text
  | mismatch text | overflow text | exhausted text | packing text | unwritable text
  | breakdown text => text
  | load index detail => s!"Token {index}: {detail}"
  | assembly line detail => s!"Line {line}: {detail}"
  | fault text ip | decoding text ip | addressing _ text ip | port text ip => text ++ ipLabel ip

def badAddress (addr : Int) (text : String) : Diagnostic :=
  .addressing addr (if text.isEmpty then s!"Bad address {addr}" else text) none

end Diagnostic

def Fault.diagnostic (f : Fault) : Diagnostic :=
  let text := f.cause.message
  match f.cause with
  | .negativeWord _ | .unknownOpcode _ | .unknownMode _ _ => .decoding text f.ip
  | .negativeAddress addr | .outOfBounds addr _ | .negativeOperand addr _ _ =>
    .addressing addr text f.ip
  | .sourceTerminated _ | .sinkTerminated _ | .missingTurn _ => .port text f.ip

def Stop.diagnostic : Stop → Diagnostic
  | .fault f => f.diagnostic
  | .unworded _ => .badValue Text.illegibleMessage
  | stop => .refusal stop.message

def Cause.diagnostic (cause : Cause) : Diagnostic :=
  ((Snag.cause cause).stop none).diagnostic

def Memory.ScratchError.diagnostic (e : Memory.ScratchError) : Diagnostic :=
  match e with
  | .negative _ => .badValue e.message
  | .uncountable => .overflow e.message
  | .exhausting => .exhausted e.message

end IntcodeVM
