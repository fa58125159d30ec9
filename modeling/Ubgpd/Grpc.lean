import Mathlib.Data.List.Perm.Basic
import Ubgpd.Bgp.Multiprotocol
import Ubgpd.Speaker.ArrivalOrder
import Ubgpd.Speaker.Handshake
import Ubgpd.Speaker.RouteLog

/-!
# What an operator is told

The two queries of `grpc.rs`. `get_rib` lists the prefixes of a Loc-RIB, which it locks for the
whole answer; `get_neighbor_config` reads the neighbor records one after another, each in a lock of
its own, so that its rows come from different moments of a run.

## What the answers mean

The manager removes an entry with its last route, so no prefix is listed that no peer announces any
more: `getRib_run` reads the answer off the events that the manager took. Of a row in
`get_neighbor_config` only the router id and the state ever change: the address, the port and the
ASN are those of the configuration in every reachable state, and the router id is that of the last
accepted OPEN.

How addresses and prefixes are written is the parameter `AddressText`.
-/

namespace Ubgpd

/-! ## Messages -/

structure NeighborRequest where
  ip : Option String

structure NeighborEntry where
  ip : String
  port : UInt32
  asn : UInt32
  routerid : UInt32
  state : String
deriving DecidableEq

structure NeighborReply where
  neighbors : List NeighborEntry
deriving DecidableEq

structure RibRequest where
  afi : UInt32
  safi : UInt32

structure RibEntry where
  nlri : String
deriving DecidableEq

structure RibReply where
  nlris : List RibEntry
deriving DecidableEq

/-- `tonic::Status`, as far as it is built. -/
inductive Status where
  | invalidArgument (message : String)
deriving DecidableEq

/-- `Display` and `FromStr` of addresses and `Display` of networks. -/
structure AddressText where
  ofIp : IpAddr → String
  parseIp : String → Except String IpAddr
  ofNet : IpNet → String

/-- The name of a state, as `Debug` prints it. -/
def BgpState.name : BgpState → String
  | .idle => "Idle"
  | .connect => "Connect"
  | .active => "Active"
  | .openSent => "OpenSent"
  | .openConfirm => "OpenConfirm"
  | .established => "Established"

theorem BgpState.name_injective : Function.Injective BgpState.name := by
  intro st st' h
  rcases st <;> rcases st' <;> first | rfl | exact absurd h (by decide)

section Queries

variable (text : AddressText)

/-! ## Neighbors -/

/-- The row of a neighbor. -/
def neighborEntry (n : BgpNeighbor) : NeighborEntry where
  ip := (n.remoteIp.map text.ofIp).getD "unknown"
  port := (n.remotePort.getD 179).toUInt32
  asn := (n.remoteAsn.getD 0).toUInt32
  routerid := n.remoteRid.getD 0
  state := n.state.name

/-- The row of a neighbor that was asked for by its address, which is unwrapped. -/
def neighborEntryAt (n : BgpNeighbor) : Outcome Status NeighborEntry := do
  let ip ← Outcome.unwrap n.remoteIp
  .ok { neighborEntry text n with ip := text.ofIp ip }

/-- The loop over the neighbors for one address. -/
def neighborEntriesAt (ip : IpAddr) : List BgpNeighbor → Outcome Status (List NeighborEntry)
  | [] => .ok []
  | n :: neighbors =>
    if some ip = n.remoteIp then do
      let entry ← neighborEntryAt text n
      let entries ← neighborEntriesAt ip neighbors
      .ok (entry :: entries)
    else neighborEntriesAt ip neighbors

/-- `get_neighbor_config`, on the records as it reads them. -/
def getNeighborConfig (neighbors : List BgpNeighbor) (request : NeighborRequest) :
    Outcome Status NeighborReply :=
  match request.ip with
  | none => .ok ⟨neighbors.map (neighborEntry text)⟩
  | some ip =>
    match text.parseIp ip with
    | .error e => .err (.invalidArgument s!"Invalid IP: {e}")
    | .ok ip => do
      let entries ← neighborEntriesAt text ip neighbors
      .ok ⟨entries⟩

/-! ## Prefixes -/

/-- `get_rib`, with the order in which the table is walked. The numbers of the request are cut to
the width of an AFI and a SAFI, and a family that the speaker does not have has no prefixes. -/
def getRib (order : List Nlri → List Nlri) (rib : AddressFamily → Option Rib)
    (request : RibRequest) : Outcome Status RibReply :=
  let afi := request.afi.toUInt16
  match Afi.fromU16 afi with
  | none => .err (.invalidArgument s!"Invalid AFI: {afi}")
  | some afi =>
    let safi := request.safi.toUInt8
    match Safi.fromU8 safi with
    | none => .err (.invalidArgument s!"Invalid SAFI: {safi}")
    | some safi =>
      match rib ⟨afi, safi⟩ with
      | none => .ok ⟨[]⟩
      | some rib => .ok ⟨(order rib.keys).map fun n ↦ ⟨text.ofNet n.net⟩⟩

/-- The tables of the speaker: one for each of its families. -/
def System.rib (cfg : BgpSpeaker) (s : System) (af : AddressFamily) : Option Rib :=
  if af ∈ cfg.families then some (s.ribs af) else none

end Queries

/-! ## What is listed -/

section Listed

variable {cfg : BgpSpeaker} {configs : List NeighborConfig} {s : System} {ls : Trace}

theorem Rib.Filled.mem_keys {rib : Rib} (h : rib.Filled) (n : Nlri) :
    n ∈ rib.keys ↔ ∃ rid, rib.HasPeer rid n := by
  rw [← AList.mem_keys, ← AList.lookup_isSome, h.lookup_eq]
  by_cases hnil : rib.entry n = []
  · rw [if_pos hnil]
    refine iff_of_false Bool.false_ne_true ?_
    rintro ⟨rid, a, ha, -⟩
    rw [hnil] at ha
    exact absurd ha List.not_mem_nil
  · rw [if_neg hnil]
    obtain ⟨a, ha⟩ := List.exists_mem_of_ne_nil _ hnil
    exact iff_of_true rfl ⟨a.peerRid, a, ha, rfl⟩

theorem filled_run (h : Run (speaker cfg).Step (System.start cfg configs) ls s)
    (af : AddressFamily) : (s.ribs af).Filled := by
  obtain ⟨es, -, hrib⟩ := ribs_run h af
  rw [hrib]
  exact (sound_processAll cfg.localAsn es).filled

/-- The request names a family, modulo the widths of an AFI and a SAFI. -/
def RibRequest.Names (request : RibRequest) (af : AddressFamily) : Prop :=
  request.afi.toUInt16 = af.afi.toU16 ∧ request.safi.toUInt8 = af.safi.toU8

/-- A peer announced the prefix on a path without the local ASN, and no later event withdrew it for
this peer. -/
def Announced (asn : UInt16) (msgs : List Update) (n : Nlri) : Prop :=
  ∃ rid, Remains (fun msg n ↦ msg.Announces asn rid n ∧ ¬msg.Withdraws rid n)
    (fun msg n ↦ msg.Withdraws rid n) msgs n

/-- The octets of an address as decimal numbers. -/
def dottedDecimal (octets : Octets) : String :=
  String.intercalate "." (octets.map fun o ↦ toString o.toNat)

def IpNet.addrOctets : IpNet → Octets
  | .v4 n => toBe 4 n.addr.toNat
  | .v6 n => toBe 16 n.addr.toNat

def ofDottedDecimal (s : String) : Except String IpAddr :=
  match (s.splitOn ".").map String.toNat? with
  | [some a, some b, some c, some d] =>
    if a < 256 ∧ b < 256 ∧ c < 256 ∧ d < 256 then
      .ok (.v4 (BitVec.ofNat 32 (((a * 256 + b) * 256 + c) * 256 + d)))
    else .error "invalid IP address syntax"
  | _ => .error "invalid IP address syntax"

/-- How IPv4 addresses and networks are written and read. -/
def dottedText : AddressText where
  ofIp ip := dottedDecimal (ip.toOctets.drop 1)
  parseIp := ofDottedDecimal
  ofNet net := dottedDecimal net.addrOctets ++ "/" ++ toString net.prefixLen.toNat

/-- **The answer to a query for prefixes, in every run.** A request that names no family is refused.
Any other is answered with each prefix of the family once that a peer announced and has not
withdrawn since, as far as the manager has got. -/
theorem getRib_run (text : AddressText) {order : List Nlri → List Nlri}
    (horder : ∀ l, (order l).Perm l)
    (h : Run (speaker cfg).Step (System.start cfg configs) ls s) (request : RibRequest) :
    ((∀ af, ¬request.Names af) ∧ ∃ message,
        getRib text order (s.rib cfg) request = .err (.invalidArgument message)) ∨
      ∃ (af : AddressFamily) (prefixes : List Nlri), request.Names af ∧
        getRib text order (s.rib cfg) request
          = .ok ⟨prefixes.map fun n ↦ ⟨text.ofNet n.net⟩⟩ ∧
        prefixes.Nodup ∧ ∀ n, n ∈ prefixes ↔
          af ∈ cfg.families ∧ Announced cfg.localAsn (processedBy af ls) n := by
  rw [getRib]
  dsimp only
  split
  · -- no AFI
    rename_i hafi
    refine Or.inl ⟨fun af hnames ↦ ?_, _, rfl⟩
    rw [Afi.fromU16_eq_some.mpr hnames.1] at hafi
    exact Option.some_ne_none _ hafi
  rename_i afi hafi
  split
  · -- no SAFI
    rename_i hsafi
    refine Or.inl ⟨fun af hnames ↦ ?_, _, rfl⟩
    rw [Safi.fromU8_eq_some.mpr hnames.2] at hsafi
    exact Option.some_ne_none _ hsafi
  rename_i safi hsafi
  have hnames : request.Names ⟨afi, safi⟩ :=
    ⟨Afi.fromU16_eq_some.mp hafi, Safi.fromU8_eq_some.mp hsafi⟩
  by_cases hfamily : ⟨afi, safi⟩ ∈ cfg.families
  · rw [System.rib, if_pos hfamily]
    refine Or.inr ⟨⟨afi, safi⟩, order (s.ribs ⟨afi, safi⟩).keys, hnames, rfl, ?_, fun n ↦ ?_⟩
    · exact (horder _).nodup_iff.mpr (AList.keys_nodup _)
    · rw [(horder _).mem_iff, (filled_run h _).mem_keys, and_iff_right hfamily]
      exact exists_congr fun rid ↦ hasPeer_run h (fun _ ↦ rfl) _ rid n
  · rw [System.rib, if_neg hfamily]
    exact Or.inr ⟨⟨afi, safi⟩, [], hnames, rfl, List.nodup_nil,
      fun n ↦ iff_of_false List.not_mem_nil fun hn ↦ hfamily hn.1⟩

/-- The numbers 65537 and 257 ask for IPv4 unicast. -/
theorem getRib_run_wrapped : ∃ ls s,
    Run (speaker oneSpeaker).Step (System.start oneSpeaker [oneNeighbor]) ls s ∧
    (s.ribs .ipv4Unicast).keys = [onePrefix] ∧
    (((∀ af, ¬(RibRequest.mk 65537 257).Names af) ∧ ∃ message,
        getRib dottedText id (s.rib oneSpeaker) ⟨65537, 257⟩ = .err (.invalidArgument message)) ∨
      ∃ (af : AddressFamily) (prefixes : List Nlri), (RibRequest.mk 65537 257).Names af ∧
        getRib dottedText id (s.rib oneSpeaker) ⟨65537, 257⟩
          = .ok ⟨prefixes.map fun n ↦ ⟨dottedText.ofNet n.net⟩⟩ ∧
        prefixes.Nodup ∧ ∀ n, n ∈ prefixes ↔ af ∈ oneSpeaker.families ∧
          Announced oneSpeaker.localAsn (processedBy af ls) n) := by
  have hexec : ((speaker oneSpeaker).exec (System.start oneSpeaker [oneNeighbor])
      (dialActions 0 ++ openSentActions 0 ++ establishActions 0 ++
        messageActions 0 (.update oneUpdate) 3 ++ [.ribMgr .ipv4Unicast fun _ ↦ true])).any
      (fun r ↦ (r.1.ribs .ipv4Unicast).keys = [onePrefix]) = true := by decide +kernel
  obtain ⟨ls, s, hrun, hkeys⟩ := Machine.exists_run_of_exec hexec
  exact ⟨ls, s, hrun, of_decide_eq_true hkeys,
    getRib_run dottedText (fun _ ↦ List.Perm.refl _) hrun ⟨65537, 257⟩⟩

end Listed

/-! ## What a row shows -/

section Rows

variable {cfg : BgpSpeaker} {configs : List NeighborConfig} {s : System} {ls : Trace}

theorem remotePort_apply (n : BgpNeighbor) (w : Write) : (w.apply n).remotePort = n.remotePort := by
  rcases w with _ | _ | addr | _ | _ | _ | body | _ | _ | ⟨af, withdrawn, added⟩ | _ | _
  case adjrib =>
    rw [Write.apply, n.adjribUpdate_eq]
  case openFrom =>
    rw [Write.apply, updateFromOpen]
    dsimp only
    split <;> rfl
  case connected => rcases addr with _ | _ <;> rfl
  all_goals rfl

theorem remotePort_foldl (ws : List Write) (n : BgpNeighbor) :
    (ws.foldl Write.apply n).remotePort = n.remotePort := by
  induction ws generalizing n with
  | nil => rfl
  | cons w ws ih => rw [List.foldl_cons, ih, remotePort_apply]

/-- **Every row, in every run.** The address, the port and the ASN are those of the configuration,
the router id is that of the last OPEN that was accepted, and a neighbor in OpenConfirm or
Established has one. -/
theorem neighborEntry_run (text : AddressText)
    (h : Run (speaker cfg).Step (System.start cfg configs) ls s) {j : ℕ} {nb : BgpNeighbor}
    (hnb : s.neighbors[j]? = some nb) : ∃ config, configs[j]? = some config ∧
      nb.remoteIp = some config.ip ∧
      neighborEntry text nb = ⟨text.ofIp config.ip, config.port.toUInt32, config.asn.toUInt32,
        (lastOpened j ls).getD 0, nb.state.name⟩ ∧
      (nb.state = .openConfirm ∨ nb.state = .established → lastOpened j ls ≠ none) := by
  obtain ⟨config, hconfig, hasn, hip, hrid⟩ := (handshaken_run h).record j nb hnb
  have hport : nb.remotePort = some config.port := by
    have hrun := neighbors_run h j
    rw [hnb, System.start, List.getElem?_map, hconfig] at hrun
    rw [Option.some.inj hrun, remotePort_foldl]
    rfl
  refine ⟨config, hconfig, hip, ?_, fun hstate ↦ ?_⟩
  · rw [neighborEntry, hip, hport, hasn, remoteRid_run h hnb]
    rfl
  · rw [← remoteRid_run h hnb]
    refine Option.isSome_iff_ne_none.mp (hrid ?_)
    rcases hstate with hstate | hstate <;> rw [hstate] <;> rfl

/-- The loop for one address keeps the rows of the neighbors that have it, in order. -/
theorem neighborEntriesAt_eq (text : AddressText) (ip : IpAddr) {records : List BgpNeighbor}
    (hips : List.Forall₂ (fun config nb ↦ nb.remoteIp = some config.ip) configs records) :
    neighborEntriesAt text ip records
      = .ok (((configs.zip (records.map (neighborEntry text))).filter fun c ↦ c.1.ip = ip).map
        Prod.snd) := by
  induction hips with
  | nil => rfl
  | @cons config nb configs records hip _ ih =>
    rw [neighborEntriesAt, hip, List.map_cons, List.zip_cons_cons]
    by_cases heq : ip = config.ip
    · have hentry : neighborEntryAt text nb = .ok (neighborEntry text nb) := by
        rw [neighborEntryAt, hip, neighborEntry, hip]
        rfl
      rw [if_pos (congrArg some heq), hentry, ih, List.filter_cons,
        if_pos (decide_eq_true heq.symm)]
      rfl
    · rw [if_neg fun h ↦ heq (Option.some.inj h), ih, List.filter_cons,
        if_neg fun h ↦ heq (of_decide_eq_true h).symm]

/-- **The answer to a query for neighbors, in every run**, with each record read at a moment of its
own: a row for each configured neighbor, in order, or only for those with the address that was asked
for. An address that does not parse is refused, and no answer panics. -/
theorem getNeighborConfig_run (text : AddressText) {records : List BgpNeighbor}
    (reads : ℕ → Trace × System) (hlen : records.length = configs.length)
    (hread : ∀ j, Run (speaker cfg).Step (System.start cfg configs) (reads j).1 (reads j).2)
    (hrecord : ∀ j nb, records[j]? = some nb → (reads j).2.neighbors[j]? = some nb) :
    ∃ rows : List NeighborEntry, rows.length = configs.length ∧
      (∀ j config row, configs[j]? = some config → rows[j]? = some row →
        row.ip = text.ofIp config.ip ∧ row.port = config.port.toUInt32 ∧
        row.asn = config.asn.toUInt32 ∧ row.routerid = (lastOpened j (reads j).1).getD 0 ∧
        (row.state = "OpenConfirm" ∨ row.state = "Established" →
          lastOpened j (reads j).1 ≠ none)) ∧
      getNeighborConfig text records ⟨none⟩ = .ok ⟨rows⟩ ∧
      ∀ ip, (∀ e, text.parseIp ip = .error e → getNeighborConfig text records ⟨some ip⟩
          = .err (.invalidArgument s!"Invalid IP: {e}")) ∧
        ∀ addr, text.parseIp ip = .ok addr → getNeighborConfig text records ⟨some ip⟩
          = .ok ⟨((configs.zip rows).filter fun c ↦ c.1.ip = addr).map Prod.snd⟩ := by
  have hrow (j : ℕ) {nb : BgpNeighbor} (hnb : records[j]? = some nb) :=
    neighborEntry_run text (hread j) (hrecord j nb hnb)
  have hips : List.Forall₂ (fun config nb ↦ nb.remoteIp = some config.ip) configs records := by
    refine List.forall₂_iff_get.mpr ⟨hlen.symm, fun j hj hj' ↦ ?_⟩
    obtain ⟨config, hconfig, hip, -⟩ := hrow j (List.getElem?_eq_getElem hj')
    rw [List.getElem?_eq_getElem hj] at hconfig
    obtain rfl := Option.some.inj hconfig
    exact hip
  refine ⟨records.map (neighborEntry text), by rw [List.length_map, hlen], ?_, rfl, fun ip ↦ ?_⟩
  · intro j config row hconfig hrow'
    rw [List.getElem?_map] at hrow'
    obtain ⟨nb, hnb, rfl⟩ := Option.map_eq_some_iff.mp hrow'
    obtain ⟨config', hconfig', -, hentry, hopened⟩ := hrow j hnb
    obtain rfl : config = config' := Option.some.inj (hconfig.symm.trans hconfig')
    refine ⟨congrArg _ hentry, congrArg _ hentry, congrArg _ hentry, congrArg _ hentry, ?_⟩
    rintro (hstate | hstate)
    · exact hopened (Or.inl (BgpState.name_injective hstate))
    · exact hopened (Or.inr (BgpState.name_injective hstate))
  · refine ⟨fun e he ↦ ?_, fun addr haddr ↦ ?_⟩
    · rw [getNeighborConfig]
      dsimp only
      rw [he]
    · rw [getNeighborConfig]
      dsimp only
      rw [haddr]
      dsimp only
      rw [neighborEntriesAt_eq text addr hips]
      rfl

/-- An Established neighbor. -/
theorem getNeighborConfig_run_established : ∃ ls s nb,
    Run (speaker oneSpeaker).Step (System.start oneSpeaker [oneNeighbor]) ls s ∧
    s.neighbors = [nb] ∧ nb.state = .established ∧
    ∃ rows : List NeighborEntry, rows.length = [oneNeighbor].length ∧
      (∀ j config row, [oneNeighbor][j]? = some config → rows[j]? = some row →
        row.ip = dottedText.ofIp config.ip ∧ row.port = config.port.toUInt32 ∧
        row.asn = config.asn.toUInt32 ∧ row.routerid = (lastOpened j ls).getD 0 ∧
        (row.state = "OpenConfirm" ∨ row.state = "Established" → lastOpened j ls ≠ none)) ∧
      getNeighborConfig dottedText [nb] ⟨none⟩ = .ok ⟨rows⟩ ∧
      ∀ ip, (∀ e, dottedText.parseIp ip = .error e → getNeighborConfig dottedText [nb] ⟨some ip⟩
          = .err (.invalidArgument s!"Invalid IP: {e}")) ∧
        ∀ addr, dottedText.parseIp ip = .ok addr → getNeighborConfig dottedText [nb] ⟨some ip⟩
          = .ok ⟨(([oneNeighbor].zip rows).filter fun c ↦ c.1.ip = addr).map Prod.snd⟩ := by
  have hexec : ((speaker oneSpeaker).exec (System.start oneSpeaker [oneNeighbor])
      (dialActions 0 ++ openSentActions 0 ++ establishActions 0)).any (fun r ↦
      r.1.neighbors.length = 1 ∧ r.1.neighbors.all fun nb ↦ nb.state = .established) = true := by
    decide +kernel
  obtain ⟨ls, s, hrun, hcheck⟩ := Machine.exists_run_of_exec hexec
  obtain ⟨hlen, hstate⟩ := decide_eq_true_eq.mp hcheck
  obtain ⟨nb, hnb⟩ := List.length_eq_one_iff.mp hlen
  have hest : nb.state = .established :=
    of_decide_eq_true (List.all_eq_true.mp hstate nb (hnb ▸ List.mem_singleton_self nb))
  refine ⟨ls, s, nb, hrun, hnb, hest, ?_⟩
  exact getNeighborConfig_run dottedText (fun _ ↦ (ls, s)) rfl (fun _ ↦ hrun)
    fun j nb' hnb' ↦ hnb ▸ hnb'

end Rows

end Ubgpd
