import BranchTrace.CpuModel

/-!
# Showing the processor

Who made the processor, which model it is or is told to be, and how many branches its stack
holds, as three lines or as JSON on one line.
-/

namespace BranchTrace.Cli

/-- What a processor says about itself. -/
structure Processor where
  vendor? : Option String
  signature? : Option Signature
  deriving DecidableEq, Repr

/-- What is shown of a processor. -/
structure CpuInfo where
  vendor? : Option String
  /-- The family and model, after a model was forced. -/
  signature? : Option Signature
  forcedModel? : Option UInt32
  deriving DecidableEq, Repr

namespace CpuInfo

/-- What is shown of a processor that is told to be of a model. -/
def new (processor : Processor) (model? : Option UInt32) : CpuInfo :=
  { vendor? := processor.vendor?
    signature? := processor.signature?.map (·.forced model?)
    forcedModel? := model? }

/-- The branches of the stack, if they are known. -/
def capacity? (info : CpuInfo) : Option Nat :=
  info.signature?.bind fun signature => signature.capacity.toOption

/-- The three lines. -/
def text (info : CpuInfo) : String :=
  let signature :=
    match info.signature? with
    | none => "unknown"
    | some s => Text.hexDigits s.family.toNat ++ "_" ++ Text.hexDigits s.model.toNat ++ "H"
  let capacity :=
    match info.capacity? with
    | none => "unsupported"
    | some capacity => toString capacity
  "vendor:       " ++ info.vendor?.getD "unknown" ++ "\nfamily/model: " ++ signature
    ++ "\nlbr entries:  " ++ capacity

/-- The JSON value. -/
def toJson (info : CpuInfo) : Text.Json :=
  let number := Text.Json.ofOption fun (n : UInt32) => .num n.toNat
  .obj
    [ ("vendor", .ofOption .str info.vendor?),
      ("family", number (info.signature?.map (·.family))),
      ("model", number (info.signature?.map (·.model))),
      ("forcedModel", number info.forcedModel?),
      ("lbrCapacity", .ofOption .num info.capacity?) ]

end CpuInfo

end BranchTrace.Cli
