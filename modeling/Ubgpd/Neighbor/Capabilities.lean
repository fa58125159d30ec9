import Mathlib.Data.List.Basic
import Mathlib.Data.List.Dedup
import Ubgpd.Bgp.Capabilities

/-!
# Negotiated capabilities

`neighbor/capabilities.rs`: what a neighbor record keeps of the capabilities of an OPEN. Reading
them is where a malformed capability can panic, since the value is cut under a test of the length
the capability claims.
-/

namespace Ubgpd

structure Capabilities where
  multiprotocol : Option (List AddressFamily) := none
  routeRefresh : Bool := false
  outboundRouteFiltering : Bool := false
  extendedNextHopEncoding : Bool := false
  gracefulRestart : Bool := false
  fourOctectAsn : Option UInt32 := none
deriving DecidableEq, Repr

namespace Capabilities

/-- The families a multiprotocol capability adds: one, or none when it is short or unknown. -/
def familyOf (c : BgpCapability) : Outcome BgpError (List AddressFamily) :=
  if c.capabilityLength ≥ 4 then do
    let afi ← slice c.capabilityValue 0 2
    let safi ← octetAt c.capabilityValue 3
    match Afi.fromU16 (UInt16.ofNat (ofBe afi)), Safi.fromU8 safi with
    | some afi, some safi => .ok [⟨afi, safi⟩]
    | _, _ => .ok []
  else .ok []

/-- The loop of `From<BGPCapabilities> for Capabilities`. -/
def loop (params : List BgpCapability) (capabilities : Capabilities) (afs : List AddressFamily) :
    Outcome BgpError (Capabilities × List AddressFamily) :=
  match params with
  | [] => .ok (capabilities, afs)
  | c :: params =>
    match c.capabilityCode with
    | .multiprotocol => do
      let af ← familyOf c
      loop params capabilities (afs ++ af)
    | .routeRefresh => loop params { capabilities with routeRefresh := true } afs
    | .extendedNextHopEncoding =>
      loop params { capabilities with extendedNextHopEncoding := true } afs
    | .outboundRouteFiltering =>
      loop params { capabilities with outboundRouteFiltering := true } afs
    | .gracefulRestart => loop params { capabilities with gracefulRestart := true } afs
    | .fourOctectAsn =>
      if c.capabilityLength ≠ 4 ∨ c.capabilityValue.length ≠ 4 then .panic
      else
        loop params
          { capabilities with fourOctectAsn := some (UInt32.ofNat (ofBe c.capabilityValue)) } afs
    | _ => loop params capabilities afs

/-- The distinct elements, in order of first occurrence: `unique` of `itertools`. -/
def unique (afs : List AddressFamily) : List AddressFamily :=
  afs.foldl (fun seen af ↦ if af ∈ seen then seen else seen ++ [af]) []

/-- `From<BGPCapabilities> for Capabilities`. -/
def fromCapabilities (params : List BgpCapability) : Outcome BgpError Capabilities := do
  let r ← loop params {} []
  .ok (if r.2.isEmpty then r.1 else { r.1 with multiprotocol := some (unique r.2) })

end Capabilities

end Ubgpd
