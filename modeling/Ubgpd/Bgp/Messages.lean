import Mathlib.Data.List.Basic
import Ubgpd.Bgp.Attributes
import Ubgpd.Bgp.Capabilities

/-!
# Messages

The four message bodies of `bgp/messages.rs` and the message around them. The body of an UPDATE is
three sections: a two-octet length and the withdrawn prefixes, a two-octet length and the path
attributes, and the announced prefixes up to the end.

## One cursor for three sections

The decoder reads the three sections with one cursor `i` and a counter `used` for each of the first
two. A section's loop ends when `used` has reached the section's length, and nothing says that it
hits that length exactly: the last item may reach past it, and the attribute loop also stops in
front of an item that does not fit the buffer. The loops below return the cursor they stopped at.

Lengths and offsets are natural numbers. `i.checked_add(plen_bytes + 1)` cannot overflow on a
buffer that exists, so its error does not occur.
-/

namespace Ubgpd

/-! ## UPDATE -/

structure BgpUpdateMessage where
  withdrawnRoutes : List Nlri
  pathAttributes : List PathAttribute
  nlri : List Nlri
deriving DecidableEq, Repr

namespace BgpUpdateMessage

/-- `From<BGPUpdateMessage> for Vec<u8>`. The two lengths are cut to sixteen bits. -/
def toOctets (val : BgpUpdateMessage) : Octets :=
  let wd := val.withdrawnRoutes.flatMap Nlri.toOctets
  let pa := val.pathAttributes.flatMap PathAttribute.toOctets
  let nl := val.nlri.flatMap Nlri.toOctets
  toBe 2 wd.length ++ (wd ++ (toBe 2 pa.length ++ (pa ++ nl)))

/-- The octets a prefix takes, from its parsed length:
`((n.net.prefix_len() as f32 / 8.0).ceil() + 1.0) as usize`, which is exact up to 32. -/
def blen (n : Nlri) : ℕ := octetsOfLen n.net.prefixLen + 1

/-- The withdrawn routes: `while wdl > used`. -/
def withdrawnLoop (src : Octets) (wdl used i : ℕ) (wd : List Nlri) :
    Outcome BgpError (List Nlri × ℕ) :=
  if _h : used < wdl then
    if i ≥ src.length then .ok (wd, i)
    else do
      let plen ← octetAt src i
      let plenBytes ← (prefixBytes plen .ipv4).mapErr fun e ↦ .message e.text
      if i + (plenBytes + 1) > src.length then .err (.message "NLRI extends beyond buffer")
      else do
        let octets ← slice src i (i + (plenBytes + 1))
        let n ← (Nlri.fromIpv4Octets octets).mapErr fun e ↦
          .message s!"Failed to parse NLRI: {e.text}"
        withdrawnLoop src wdl (used + blen n) (i + blen n) (wd ++ [n])
  else .ok (wd, i)
termination_by wdl - used
decreasing_by simp only [blen]; omega

/-- The path attributes: `while atl > used`. -/
def attributeLoop (src : Octets) (atl used i : ℕ) (pa : List PathAttribute) :
    Outcome BgpError (List PathAttribute × ℕ) :=
  if _h : used < atl then
    if i ≥ src.length then .ok (pa, i)
    else do
      let flags ← octetAt src i
      match isExtendedLen flags with
      | false =>
        if i + 3 > src.length then .ok (pa, i)
        else do
          let atn ← octetAt src (i + 2)
          if i + (3 + atn.toNat) > src.length then .ok (pa, i)
          else do
            let octets ← slice src i (i + (3 + atn.toNat))
            let n ← PathAttribute.fromOctets octets
            attributeLoop src atl (used + (3 + atn.toNat)) (i + (3 + atn.toNat)) (pa ++ [n])
      | true =>
        if i + 4 > src.length then .ok (pa, i)
        else do
          let l ← slice src (i + 2) (i + 4)
          if i + (4 + ofBe l) > src.length then .ok (pa, i)
          else do
            let octets ← slice src i (i + (4 + ofBe l))
            let n ← PathAttribute.fromOctets octets
            attributeLoop src atl (used + (4 + ofBe l)) (i + (4 + ofBe l)) (pa ++ [n])
  else .ok (pa, i)
termination_by atl - used

/-- The announced routes: `while i < total_len`. The slice is unchecked. -/
def nlriLoop (src : Octets) (i : ℕ) (routes : List Nlri) : Outcome BgpError (List Nlri) :=
  if _h : i < src.length then do
    let plen ← octetAt src i
    let plenBytes ← (prefixBytes plen .ipv4).mapErr fun e ↦ .message e.text
    let octets ← slice src i (i + (plenBytes + 1))
    let n ← (Nlri.fromIpv4Octets octets).mapErr fun e ↦
      .message s!"Failed to parse NLRI: {e.text}"
    nlriLoop src (i + blen n) (routes ++ [n])
  else .ok routes
termination_by src.length - i
decreasing_by simp only [blen]; omega

/-- `TryFrom<Vec<u8>> for BGPUpdateMessage`. -/
def tryFrom (src : Octets) : Outcome BgpError BgpUpdateMessage :=
  if src.length < 2 then .err (.message "Insufficient data for withdrawn routes length")
  else do
    let wdl ← slice src 0 2
    let wd ← withdrawnLoop src (ofBe wdl) 0 2 []
    if wd.2 + 2 > src.length then .err (.message "Not enough data for path attributes length")
    else do
      let atl ← slice src wd.2 (wd.2 + 2)
      if wd.2 + 2 + ofBe atl > src.length then
        .err (.message "Path attributes length exceeds available data")
      else do
        let pa ← attributeLoop src (ofBe atl) 0 (wd.2 + 2) []
        let routes ← nlriLoop src pa.2 []
        .ok ⟨wd.1, pa.1, routes⟩

end BgpUpdateMessage

/-! ## OPEN, NOTIFICATION, KEEPALIVE -/

structure BgpOpenMessage where
  version : UInt8
  asn : UInt16
  holdTime : UInt16
  routerId : UInt32
  optParams : BgpOptionalParameters
deriving DecidableEq, Repr

/-- `From<Vec<u8>> for BGPOpenMessage`. -/
def BgpOpenMessage.fromOctets (src : Octets) : Outcome BgpError BgpOpenMessage := do
  let version ← octetAt src 0
  let asn ← slice src 1 3
  let hold ← slice src 3 5
  let rid ← slice src 5 9
  let opt ← slice src 9 src.length
  let opt ← BgpOptionalParameters.fromOctets opt
  .ok ⟨version, UInt16.ofNat (ofBe asn), UInt16.ofNat (ofBe hold), UInt32.ofNat (ofBe rid), opt⟩

/-- `From<BGPOpenMessage> for Vec<u8>`. -/
def BgpOpenMessage.toOctets (val : BgpOpenMessage) : Octets :=
  val.version :: (toBe 2 val.asn.toNat ++ (toBe 2 val.holdTime.toNat
    ++ (toBe 4 val.routerId.toNat ++ val.optParams.toOctets)))

structure BgpNotificationMessage where
  errorCode : ErrorCode
  errorSubcode : UInt8
  data : Octets
deriving DecidableEq, Repr

/-- `From<Vec<u8>> for BGPNotificationMessage`. The data is dropped. -/
def BgpNotificationMessage.fromOctets (src : Octets) :
    Outcome BgpError BgpNotificationMessage := do
  let e ← octetAt src 0
  let e ← Outcome.unwrap (ErrorCode.fromU8 e)
  let sub ← octetAt src 1
  .ok ⟨e, sub, []⟩

/-- `From<BGPNotificationMessage> for Vec<u8>`. -/
def BgpNotificationMessage.toOctets (val : BgpNotificationMessage) : Octets :=
  val.errorCode.toU8 :: val.errorSubcode :: val.data

inductive BgpMessageBody where
  | open (body : BgpOpenMessage)
  | update (body : BgpUpdateMessage)
  | notification (body : BgpNotificationMessage)
  | keepalive
deriving DecidableEq, Repr

/-- `From<BGPMessageBody> for Vec<u8>`. -/
def BgpMessageBody.toOctets : BgpMessageBody → Octets
  | .open body => body.toOctets
  | .update body => body.toOctets
  | .notification body => body.toOctets
  | .keepalive => []

/-! ## The message -/

structure Message where
  messageType : MessageType
  body : BgpMessageBody
deriving DecidableEq, Repr

/-- `From<Message> for Vec<u8>`: the type octet and the body, without marker and length. -/
def Message.toOctets (val : Message) : Octets := val.messageType.toU8 :: val.body.toOctets

/-- The body of a message of a given type. -/
def BgpMessageBody.tryFrom (mtype : MessageType) (v : Octets) : Outcome BgpError BgpMessageBody :=
  match mtype with
  | .open => do
    let msg ← BgpOpenMessage.fromOctets v
    .ok (.open msg)
  | .update => do
    let msg ← BgpUpdateMessage.tryFrom v
    .ok (.update msg)
  | .notification => do
    let msg ← BgpNotificationMessage.fromOctets v
    .ok (.notification msg)
  | .keepalive => .ok .keepalive

/-- `TryFrom<Vec<u8>> for Message`. -/
def Message.tryFrom (src : Octets) : Outcome BgpError Message :=
  if src.length < 19 then .err (.message "Message too short")
  else do
    let m ← slice src 0 16
    let _ ← (validateMarker m).mapErr fun _ ↦ BgpError.message "Invalid marker"
    let lengthBytes ← slice src 16 18
    let declaredLength := ofBe lengthBytes
    if ¬(19 ≤ declaredLength ∧ declaredLength ≤ 4096) then
      .err (.message "Invalid message length")
    else if src.length ≠ declaredLength then .err (.message "Message length mismatch")
    else do
      let t ← octetAt src 18
      let mtype ← Outcome.okOr (MessageType.fromU8 t) (.message "Invalid message type")
      let v ← slice src 19 src.length
      let body ← BgpMessageBody.tryFrom mtype v
      .ok ⟨mtype, body⟩

end Ubgpd
