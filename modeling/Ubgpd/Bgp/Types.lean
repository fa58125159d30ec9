import Mathlib.Data.List.Basic
import Ubgpd.Lib.Octets

/-!
# Wire constants, enumerations and validation

The types of `bgp/types.rs` that the messages are built from, with the numbers they have on the
wire, and the validation helpers of the same file. An enumeration is read back with its `fromU8`
or `fromU16`, which is partial; `fromU8_toU8` and its siblings say that reading undoes writing.

Errors carry the texts of the source. `BgpError` keeps the two constructors that the modelled
functions build.
-/

namespace Ubgpd

/-! ## Constants -/

/-- The sixteen marker octets. -/
def marker : Octets := List.replicate 16 0xff

def version : UInt8 := 4

def minMessageLength : ℕ := 19

def maxMessageLength : ℕ := 4096

@[simp] theorem length_marker : marker.length = 16 := rfl

/-! ## Enumerations -/

inductive Afi where
  | ipv4
  | ipv6
deriving DecidableEq, Repr

def Afi.toU16 : Afi → UInt16
  | .ipv4 => 1
  | .ipv6 => 2

def Afi.fromU16 (v : UInt16) : Option Afi :=
  match v.toNat with
  | 1 => some .ipv4
  | 2 => some .ipv6
  | _ => none

@[simp] theorem Afi.fromU16_toU16 (a : Afi) : Afi.fromU16 a.toU16 = some a := by cases a <;> rfl

inductive Safi where
  | nlriUnicast
  | nlriMulticast
deriving DecidableEq, Repr

def Safi.toU8 : Safi → UInt8
  | .nlriUnicast => 1
  | .nlriMulticast => 2

def Safi.fromU8 (v : UInt8) : Option Safi :=
  match v.toNat with
  | 1 => some .nlriUnicast
  | 2 => some .nlriMulticast
  | _ => none

@[simp] theorem Safi.fromU8_toU8 (a : Safi) : Safi.fromU8 a.toU8 = some a := by cases a <;> rfl

structure AddressFamily where
  afi : Afi
  safi : Safi
deriving DecidableEq, Repr

/-- The family of plain IPv4 routes. -/
def AddressFamily.ipv4Unicast : AddressFamily := ⟨.ipv4, .nlriUnicast⟩

/-- The family of plain IPv6 routes. -/
def AddressFamily.ipv6Unicast : AddressFamily := ⟨.ipv6, .nlriUnicast⟩

inductive MessageType where
  | open
  | update
  | notification
  | keepalive
deriving DecidableEq, Repr

def MessageType.toU8 : MessageType → UInt8
  | .open => 1
  | .update => 2
  | .notification => 3
  | .keepalive => 4

def MessageType.fromU8 (v : UInt8) : Option MessageType :=
  match v.toNat with
  | 1 => some .open
  | 2 => some .update
  | 3 => some .notification
  | 4 => some .keepalive
  | _ => none

@[simp] theorem MessageType.fromU8_toU8 (t : MessageType) :
    MessageType.fromU8 t.toU8 = some t := by cases t <;> rfl

inductive ErrorCode where
  | messageHeader
  | openMessage
  | updateMessage
  | holdTimerExpired
  | fsmError
  | cease
deriving DecidableEq, Repr

def ErrorCode.toU8 : ErrorCode → UInt8
  | .messageHeader => 1
  | .openMessage => 2
  | .updateMessage => 3
  | .holdTimerExpired => 4
  | .fsmError => 5
  | .cease => 6

def ErrorCode.fromU8 (v : UInt8) : Option ErrorCode :=
  match v.toNat with
  | 1 => some .messageHeader
  | 2 => some .openMessage
  | 3 => some .updateMessage
  | 4 => some .holdTimerExpired
  | 5 => some .fsmError
  | 6 => some .cease
  | _ => none

/-! ## Errors -/

inductive BgpValidationError where
  | messageTooShort (actual minimum : ℕ)
  | messageTooLong (actual maximum : ℕ)
  | invalidMarker
  | invalidNlriPrefixLength (plen : UInt8)
deriving DecidableEq, Repr

/-- The `Display` text. -/
def BgpValidationError.text : BgpValidationError → String
  | .messageTooShort actual minimum => s!"Message too short: got {actual}, minimum {minimum}"
  | .messageTooLong actual maximum => s!"Message too long: got {actual}, maximum {maximum}"
  | .invalidMarker => "Invalid marker: expected all 0xFF"
  | .invalidNlriPrefixLength plen => s!"Invalid NLRI prefix length: {plen}"

inductive BgpError where
  | message (text : String)
  | validation (e : BgpValidationError)
deriving DecidableEq, Repr

/-- The `Display` text. -/
def BgpError.text : BgpError → String
  | .message text => s!"BGP message error: {text}"
  | .validation e => s!"Validation error: {e.text}"

/-! ## Validation -/

def validateMessageLength (length : ℕ) : Outcome BgpValidationError Unit :=
  if length < minMessageLength then .err (.messageTooShort length minMessageLength)
  else if length > maxMessageLength then .err (.messageTooLong length maxMessageLength)
  else .ok ()

theorem validateMessageLength_eq_ok {length : ℕ} :
    validateMessageLength length = .ok () ↔ 19 ≤ length ∧ length ≤ 4096 := by
  rw [validateMessageLength, minMessageLength, maxMessageLength]
  split
  · simp only [reduceCtorEq, false_iff]; omega
  · split
    · simp only [reduceCtorEq, false_iff]; omega
    · simp only [true_iff]; omega

def validateMarker (m : Octets) : Outcome BgpValidationError Unit :=
  if m ≠ marker then .err .invalidMarker else .ok ()

/-- The extended-length bit of an attribute's flag octet. -/
def isExtendedLen (mask : UInt8) : Bool := (mask >>> 4) &&& 0b0001 != 0

/-- The widest prefix of a family. -/
def Afi.maxLen : Afi → ℕ
  | .ipv4 => 32
  | .ipv6 => 128

/-- How many octets a prefix of the given length takes, `usize::div_ceil(8)`. -/
def octetsOfLen (plen : UInt8) : ℕ := (plen.toNat + 7) / 8

def prefixBytes (plen : UInt8) (afi : Afi) : Outcome BgpValidationError ℕ :=
  if plen.toNat > afi.maxLen then .err (.invalidNlriPrefixLength plen)
  else .ok (octetsOfLen plen)

theorem prefixBytes_eq_ok {plen : UInt8} {afi : Afi} {n : ℕ} :
    prefixBytes plen afi = .ok n ↔ plen.toNat ≤ afi.maxLen ∧ octetsOfLen plen = n := by
  rw [prefixBytes]
  split
  · simp only [reduceCtorEq, false_iff]; omega
  · simp only [Outcome.ok.injEq, iff_and_self]; omega

theorem prefixBytes_of_le {plen : UInt8} {afi : Afi} (h : plen.toNat ≤ afi.maxLen) :
    prefixBytes plen afi = .ok (octetsOfLen plen) := prefixBytes_eq_ok.mpr ⟨h, rfl⟩

theorem octetsOfLen_le {plen : UInt8} {k : ℕ} (h : plen.toNat ≤ 8 * k) : octetsOfLen plen ≤ k := by
  rw [octetsOfLen]; omega

end Ubgpd
