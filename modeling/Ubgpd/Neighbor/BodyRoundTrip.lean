import Mathlib.Algebra.Order.BigOperators.Group.List
import Ubgpd.Bgp.MessagePanics
import Ubgpd.Neighbor.OpenMessage

/-!
# What OPEN and NOTIFICATION lose on the wire

`BGPOptionalParameters::new` and the encoder take `len` to be the octets of the parameters, without
the length octet in front of them. The decoder stores where its cursor ended, and that started
behind the length octet. So a decoded OPEN has a `len` that is one too large, and written again it
announces one octet more than it has (`BgpOpenMessage.toOctets_ne_of_fromOctets`).

A NOTIFICATION is written with its data and read without.
-/

namespace Ubgpd

/-! ## The parameters -/

namespace BgpOptionalParameters

variable {params wd wd' : List BgpOptionalParameter} {src : Octets} {len used i i' : ℕ}

theorem length_toOctets_new (h : ∀ p ∈ params, p.paramLength = p.paramValue.length) :
    (new params).toOctets.length = (new params).len + 1 := by
  have hsizes : params.map (fun p ↦ p.toOctets.length) = params.map fun p ↦ 2 + p.paramLength :=
    List.map_congr_left fun p hp ↦ by rw [BgpOptionalParameter.length_toOctets, h p hp, add_comm]
  rw [toOctets, List.length_cons, List.length_flatMap]
  exact congrArg (List.sum · + 1) hsizes

/-- The loop moves its cursor by the octets it counts, and it counts the announced ones. -/
theorem cursor_of_loop (h : loop src len used i wd = .ok (wd', i')) (hused : used ≤ 255) :
    ∃ total, i' + used = i + total ∧ len ≤ total ∧ total ≤ 255 ∧ (used < len ∨ total = used) := by
  induction hk : len - used using Nat.strong_induction_on generalizing used i wd with
  | _ k ih =>
    by_cases hlt : used < len
    · rcases Tlv.exists_or_stump (src.drop i) with ⟨t, r, heq⟩ | hstump
      · rw [loop_item heq hlt] at h
        obtain ⟨ty, -, h⟩ := Outcome.bind_eq_ok.mp h
        split at h
        · exact nomatch h
        · rename_i hfits
          obtain ⟨total, hcursor, hlen, hle, -⟩ := ih _ (by omega) h (Nat.not_lt.mp hfits) rfl
          exact ⟨total, by omega, hlen, hle, Or.inl hlt⟩
      · rw [loop_stump hstump hlt] at h
        exact nomatch h
    · rw [loop, dif_neg hlt] at h
      obtain ⟨-, rfl⟩ := Prod.mk.inj (Outcome.ok.inj h)
      exact ⟨used, rfl, Nat.le_of_not_lt hlt, hused, Or.inr rfl⟩

/-- **Decoded parameters announce another length** than the octets they were read from. -/
theorem ofNat_len_ne {l : UInt8} {s : Octets} {opt : BgpOptionalParameters}
    (h : fromOctets (l :: s) = .ok opt) : UInt8.ofNat opt.len ≠ l := by
  obtain ⟨l', hl', h⟩ := Outcome.bind_eq_ok.mp h
  obtain rfl : l = l' := Outcome.ok.inj hl'
  obtain ⟨⟨wd, i⟩, hloop, h⟩ := Outcome.bind_eq_ok.mp h
  obtain rfl := Outcome.ok.inj h
  obtain ⟨total, hcursor, hlen, hle, hcases⟩ := cursor_of_loop hloop (Nat.zero_le 255)
  intro heq
  have hnat : i % 256 = l.toNat := by rw [← heq, UInt8.toNat_ofNat']
  -- the cursor is one to the right of the count, and leaves the octet only if it has counted 255
  omega

end BgpOptionalParameters

/-! ## OPEN -/

namespace BgpOpenMessage

/-- The parameters come from `BGPOptionalParameters::new`, their lengths are those of their values,
and the total fits an octet. -/
def Built (message : BgpOpenMessage) : Prop :=
  ∃ params, message.optParams = BgpOptionalParameters.new params ∧
    (∀ p ∈ params, p.paramLength = p.paramValue.length) ∧ message.optParams.len ≤ 255

/-- A built OPEN comes back with a length that is one larger. -/
theorem fromOctets_toOctets_built {message : BgpOpenMessage} (h : message.Built) :
    fromOctets message.toOctets = .ok { message with
      optParams := { message.optParams with len := message.optParams.len + 1 } } := by
  obtain ⟨version, asn, hold, rid, opt⟩ := message
  obtain ⟨params, rfl, hlengths, hlen⟩ :
    ∃ params, opt = BgpOptionalParameters.new params ∧
      (∀ p ∈ params, p.paramLength = p.paramValue.length) ∧ opt.len ≤ 255 := h
  have hwhole : ∀ p ∈ params, p.Whole := by
    intro p hp
    have hsum : 2 + p.paramLength ≤ (BgpOptionalParameters.new params).len :=
      List.le_sum_of_mem (List.mem_map.mpr ⟨p, hp, rfl⟩)
    exact ⟨hlengths p hp, by omega⟩
  rw [fromOctets_toOctets version asn hold rid hwhole hlen,
    BgpOptionalParameters.length_toOctets_new hlengths]
  rfl

theorem drop_toOctets (message : BgpOpenMessage) :
    message.toOctets.drop 9 = message.optParams.toOctets := rfl

/-- **A decoded OPEN is not written as it was read.** -/
theorem toOctets_ne_of_fromOctets {src : Octets} {message : BgpOpenMessage}
    (h : fromOctets src = .ok message) : message.toOctets ≠ src := by
  obtain ⟨version, -, h⟩ := Outcome.bind_eq_ok.mp h
  obtain ⟨asn, -, h⟩ := Outcome.bind_eq_ok.mp h
  obtain ⟨hold, -, h⟩ := Outcome.bind_eq_ok.mp h
  obtain ⟨rid, -, h⟩ := Outcome.bind_eq_ok.mp h
  obtain ⟨rest, hrest, h⟩ := Outcome.bind_eq_ok.mp h
  obtain ⟨opt, hopt, h⟩ := Outcome.bind_eq_ok.mp h
  obtain rfl := Outcome.ok.inj h
  intro heq
  have hdrop : opt.toOctets = rest := by
    rw [slice_to_length (slice_eq_ok.mp hrest).1.1, ← heq, drop_toOctets] at hrest
    exact Outcome.ok.inj hrest
  rw [← hdrop] at hopt
  exact BgpOptionalParameters.ofNat_len_ne hopt rfl

end BgpOpenMessage

/-! ## NOTIFICATION -/

theorem ErrorCode.fromU8_toU8 (e : ErrorCode) : ErrorCode.fromU8 e.toU8 = some e := by
  cases e <;> rfl

theorem BgpNotificationMessage.fromOctets_toOctets (message : BgpNotificationMessage) :
    fromOctets message.toOctets = .ok { message with data := [] } := by
  have hread : fromOctets message.toOctets
      = (Outcome.unwrap (ErrorCode.fromU8 message.errorCode.toU8)
        >>= fun e ↦ .ok ⟨e, message.errorSubcode, []⟩) := rfl
  rw [hread, ErrorCode.fromU8_toU8]
  rfl

/-! ## There and back -/

/-- A message that is written and read again, or an OPEN that was read and is written again. -/
inductive Trip where
  | openMessage (message : BgpOpenMessage) (built : message.Built)
  | notification (message : BgpNotificationMessage)
  | parsedOpen (src : Octets) (message : BgpOpenMessage)
    (parsed : BgpOpenMessage.fromOctets src = .ok message)

/-- The trip ends where it began. -/
def Trip.Returns : Trip → Prop
  | openMessage message _ => BgpOpenMessage.fromOctets message.toOctets = .ok message
  | notification message => BgpNotificationMessage.fromOctets message.toOctets = .ok message
  | parsedOpen src message _ => message.toOctets = src

/-- **When OPEN and NOTIFICATION survive the wire**: a NOTIFICATION when it has no data, an OPEN
never, and no OPEN that was read is written as the octets it was read from. -/
theorem trip_returns_iff (trip : Trip) :
    trip.Returns ↔ ∃ message, trip = .notification message ∧ message.data = [] := by
  match trip with
  | .openMessage message built =>
    refine iff_of_false (fun h ↦ ?_) fun ⟨_, h, _⟩ ↦ (nomatch h)
    have hread := (BgpOpenMessage.fromOctets_toOctets_built built).symm.trans h
    have hlen := congrArg (fun message ↦ message.optParams.len) (Outcome.ok.inj hread)
    exact Nat.succ_ne_self _ hlen
  | .notification message =>
    rw [Trip.Returns, BgpNotificationMessage.fromOctets_toOctets]
    constructor
    · intro h
      exact ⟨message, rfl, (congrArg BgpNotificationMessage.data (Outcome.ok.inj h)).symm⟩
    · rintro ⟨_, heq, hdata⟩
      obtain rfl := Trip.notification.inj heq
      rw [← hdata]
  | .parsedOpen src message parsed =>
    refine iff_of_false (fun h ↦ ?_) fun ⟨_, h, _⟩ ↦ (nomatch h)
    exact BgpOpenMessage.toOctets_ne_of_fromOctets parsed h

/-- An OPEN for IPv4 unicast. -/
def defaultOpen : BgpOpenMessage := ⟨4, 65000, 180, 16909060, .new [.default]⟩

theorem built_defaultOpen : defaultOpen.Built := ⟨[.default], rfl, by decide, by decide⟩

/-- What the OPEN is read as: with a length of nine, where it was written with one of eight. -/
theorem fromOctets_defaultOpen : BgpOpenMessage.fromOctets defaultOpen.toOctets
    = .ok { defaultOpen with optParams := ⟨9, [.default]⟩ } := by decide +kernel

/-- The OPEN does not return in either direction. -/
theorem trip_returns_iff_defaultOpen : ¬(Trip.openMessage defaultOpen built_defaultOpen).Returns ∧
    ¬(Trip.parsedOpen defaultOpen.toOctets _ fromOctets_defaultOpen).Returns := by
  constructor
  · intro h
    obtain ⟨_, heq, -⟩ := (trip_returns_iff _).mp h
    exact nomatch heq
  · intro h
    obtain ⟨_, heq, -⟩ := (trip_returns_iff _).mp h
    exact nomatch heq

theorem not_forall_trip_returns : ¬∀ trip : Trip, trip.Returns := by
  intro h
  have hread : Outcome.ok defaultOpen
      = (.ok { defaultOpen with optParams := ⟨9, [.default]⟩ } : Outcome BgpError BgpOpenMessage) :=
    (h (.openMessage defaultOpen built_defaultOpen)).symm.trans fromOctets_defaultOpen
  exact absurd (congrArg (fun message ↦ message.optParams.len) (Outcome.ok.inj hread)) (by decide)

end Ubgpd
