import Phrasebook.Json.Value

/-!
# Phrasebook.MessageId

Compact identifiers of message keys: the 64-bit FNV-1a hash of the key's UTF-8
bytes.  The same key always has the same identifier; two keys may share one.
-/

namespace Phrasebook

/-- The identifier of a message key. -/
structure MessageId where
  hash : UInt64
deriving DecidableEq

namespace MessageId

/-- The hash of no bytes. -/
def offsetBasis : UInt64 := 0xcbf29ce484222325

/-- The factor of each step. -/
def fnvFactor : UInt64 := 0x100000001b3

/-- The hash with one more byte. -/
def step (h : UInt64) (b : UInt8) : UInt64 := (h ^^^ b.toUInt64) * fnvFactor

/-- The identifier of a key. -/
def ofKey (key : String) : MessageId := ⟨key.toUTF8.data.toList.foldl step offsetBasis⟩

/-- Sixteen hexadecimal digits. -/
def hex (id : MessageId) : String :=
  String.ofList ((List.range 16).map fun i =>
    Json.hexDigit ((id.hash.toNat >>> (4 * (15 - i))) % 16))

/-- The text that stands for an identifier in place of its key. -/
def render (id : MessageId) : String := "MessageId(" ++ id.hex ++ ")"

example : (ofKey "").hash = 0xcbf29ce484222325 := by decide +kernel
example : (ofKey "a").render = "MessageId(af63dc4c8601ec8c)" := by decide +kernel

end MessageId

end Phrasebook
