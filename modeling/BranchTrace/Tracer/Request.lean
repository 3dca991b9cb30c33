import BranchTrace.Failure.TraceError
import BranchTrace.Register.Access

/-!
# Control requests

What a process sends to the control device: a command number and a block of sixteen bytes. The
block holds a select mask and a process number, lowest byte first, and four bytes that are zero
when written and ignored when read. Reading takes a block of exactly that length.
-/

namespace BranchTrace

/-- The contents of a request block. -/
structure Request where
  select : UInt64
  pid : UInt32
  deriving DecidableEq, Repr

namespace Request

/-- The length of a request block. -/
def size : Nat := 16

/-- Reads a request block. -/
def ofBytes (bytes : List UInt8) : Except TraceError Request :=
  if bytes.length = size then
    .ok
      { select := UInt64.ofNat (ofLittleEndian (bytes.take 8))
        pid := UInt32.ofNat (ofLittleEndian ((bytes.drop 8).take 4)) }
  else .error (.partialRequest size bytes.length)

/-- Writes a request block. -/
def toBytes (request : Request) : List UInt8 :=
  littleEndian 8 request.select.toNat ++ littleEndian 4 request.pid.toNat ++ [0, 0, 0, 0]

end Request

/-- What a request asks for. -/
inductive Command where
  | enable
  | disable
  | dump
  | select
  deriving DecidableEq, Repr

namespace Command

/-- The name of a command. -/
def name : Command → String
  | enable => "EnableTrace"
  | disable => "DisableTrace"
  | dump => "DumpLbr"
  | select => "SelectLbr"

/-- The number of a command that passes a request block in: the direction, the length of the
block, the letter of the device, and the place of the command among the device's own. -/
def numberOf (place : UInt32) : UInt32 :=
  ((1 : UInt32) <<< 30) ||| (UInt32.ofNat Request.size <<< 16)
    ||| (UInt32.ofNat 'l'.toNat <<< 8) ||| place

/-- The number of a command. -/
def number : Command → UInt32
  | enable => numberOf 1
  | disable => numberOf 2
  | dump => numberOf 3
  | select => numberOf 4

/-- The command with a number. -/
def ofNumber (number : UInt32) : Except TraceError Command :=
  if number = enable.number then .ok enable
  else if number = disable.number then .ok disable
  else if number = dump.number then .ok dump
  else if number = select.number then .ok select
  else .error (.badCommand number)

end Command

/-- What a request that was carried out gives back. -/
inductive Reply where
  | enabled (pid : UInt32)
  | disabled (count : Nat)
  | dumped (snapshot : Snapshot)
  | selected (pid : UInt32)
  deriving DecidableEq, Repr

end BranchTrace
