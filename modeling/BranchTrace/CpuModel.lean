import BranchTrace.Machine.Basic

/-!
# Processor models

Which processors have a branch stack, and how many branches it holds. Sizes are known for the
models of one family only. A model given by the user takes the place of the detected one.
-/

namespace BranchTrace

/-- The family and model a processor reports. -/
structure Signature where
  family : UInt32
  model : UInt32
  deriving DecidableEq, Repr

namespace Signature

/-- The family whose stack sizes are known. -/
def knownFamily : UInt32 := 6

/-- The models with a stack of 32 branches. -/
def models32 : List UInt32 :=
  [ 0x4e, 0x5e, 0x55, 0x66, 0x6a, 0x6c, 0x7d, 0x7e, 0x8c, 0x8d, 0x8e, 0x9e, 0xa5, 0xa6, 0xa7,
    0xa8, 0x5c, 0x5f, 0x7a, 0x86, 0x8a, 0x96, 0x9c, 0x97, 0x9a ]

/-- The models with a stack of 16 branches. -/
def models16 : List UInt32 :=
  [ 0x1a, 0x1e, 0x1f, 0x2e, 0x25, 0x2c, 0x2f, 0x2a, 0x2d, 0x3a, 0x3e, 0x3c, 0x45, 0x46, 0x3f,
    0x3d, 0x47, 0x4f, 0x56 ]

/-- The models with a stack of 8 branches. -/
def models8 : List UInt32 :=
  [0x1c, 0x26, 0x27, 0x35, 0x36, 0x37, 0x4a, 0x4c, 0x4d, 0x5a, 0x5d]

/-- The models with a stack of 4 branches. -/
def models4 : List UInt32 :=
  [0x0f, 0x17, 0x1d]

/-- The signature in the identification word of a processor. Its model number has two parts. -/
def ofWord (word : UInt32) : Signature :=
  { family := (word >>> 8) &&& 0xf
    model := (((word >>> 16) &&& 0xf) <<< 4) + ((word >>> 4) &&& 0xf) }

/-- The number of branches that the stack of a processor holds. -/
def capacity (signature : Signature) : Except TraceError Nat :=
  if signature.family = knownFamily then
    if signature.model ∈ models32 then .ok 32
    else if signature.model ∈ models16 then .ok 16
    else if signature.model ∈ models8 then .ok 8
    else if signature.model ∈ models4 then .ok 4
    else .error (.unsupportedCpu signature.family signature.model)
  else .error (.unsupportedCpu signature.family signature.model)

/-- A signature as a JSON value. -/
def toJson (signature : Signature) : Text.Json :=
  .obj [("family", .num signature.family.toNat), ("model", .num signature.model.toNat)]

/-- A signature whose model is the given one, if there is one. -/
def forced (signature : Signature) (model? : Option UInt32) : Signature :=
  { signature with model := model?.getD signature.model }

/-- The stack size of the processor a machine has, or is told to have. A processor that says
nothing about itself has no known size whatever it is told to be. -/
def identify {σ : Type} [MachineState σ] (detected? : Option Signature) (model? : Option UInt32) :
    Action σ TraceError Nat := do
  match detected? with
  | none => throw (.unsupportedCpu 0 0)
  | some detected =>
    if let some model := model? then
      tell (.modelForced model detected.model)
    let signature := detected.forced model?
    match signature.capacity with
    | .error e => throw e
    | .ok size =>
      tell (.identified signature.family signature.model size)
      return size

end Signature

end BranchTrace
