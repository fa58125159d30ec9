import Mathlib.Data.List.Basic
import Ubgpd.Speaker.System

/-!
# The configuration

`config.rs` and the start of `ubgpd.rs`: what the file leaves out gets a default, first in
`read_config` for the speaker and then in `main` for each neighbor, which takes over the speaker's
families and hold time. A neighbor may name families of its own, and nothing compares them with the
speaker's (`families_of_main`).

The file is parsed. The port and the addresses of the listener are left out, and so is the keepalive
interval, which nothing reads.
-/

namespace Ubgpd

/-- `config::Neighbor`, the address parsed. -/
structure Config.Neighbor where
  asn : UInt16
  ip : IpAddr
  port : UInt16
  holdTime : Option UInt16 := none
  families : Option (List AddressFamily) := none
  /-- `default_connect_retry`. -/
  connectRetry : Option UInt16 := some 120
  maxRetryCount : Option UInt16 := none
  exponentialBackoff : Bool := false

/-- `config::Config`. -/
structure Config where
  asn : UInt16
  rid : UInt32
  holdTime : Option UInt16 := none
  families : Option (List AddressFamily) := none
  neighbors : Option (List Config.Neighbor) := none

namespace Config

/-- `BGP_DEFAULT_HOLD_TIME`. -/
def bgpDefaultHoldTime : UInt16 := 3

/-- `read_config`, once the file is parsed. -/
def readConfig (config : Config) : Config :=
  { config with
    holdTime := config.holdTime.or (some bgpDefaultHoldTime)
    families := config.families.or (some [.ipv4Unicast]) }

/-- The fields of a neighbor that `add_neighbor` expects. -/
def Neighbor.toNeighborConfig (n : Neighbor) : Outcome String NeighborConfig := do
  let holdTime ← Outcome.unwrap n.holdTime
  let connectRetry ← Outcome.unwrap n.connectRetry
  .ok ⟨n.ip, n.port, n.asn, holdTime, connectRetry, n.families, n.maxRetryCount,
    n.exponentialBackoff⟩

/-- The body of the loop of `main`. -/
def Neighbor.complete (config : Config) (speaker : BgpSpeaker) (n : Neighbor) : Neighbor :=
  let families := config.families
  { n with
    families := match n.families with
      | some i => some i
      | none => families
    holdTime := match n.holdTime with
      | some i => some i
      | none => some speaker.holdTime }

/-- `main`, up to the start of the speaker. -/
def main (config : Config) : Outcome String (BgpSpeaker × List NeighborConfig) := do
  let families := config.families.getD []
  let holdTime ← Outcome.okOr config.holdTime "Hold time not configured"
  let speaker : BgpSpeaker := ⟨config.asn, config.rid, holdTime, families⟩
  let neighbors ← (config.neighbors.getD []).mapM fun n ↦
    (n.complete config speaker).toNeighborConfig
  .ok (speaker, neighbors)

/-- The speaker and the neighbors that are loaded from a file. -/
def Loads (config : Config) (cfg : BgpSpeaker) (configs : List NeighborConfig) : Prop :=
  config.readConfig.main = .ok (cfg, configs)

/-- The families of what is loaded: the speaker has those of the file or IPv4 unicast, and a
neighbor has its own or the speaker's. -/
theorem Loads.families {config : Config} {cfg : BgpSpeaker} {configs : List NeighborConfig}
    (h : config.Loads cfg configs) : cfg.families = config.families.getD [.ipv4Unicast] ∧
      ∀ n ∈ configs, n.families = some cfg.families ∨
        ∃ m ∈ config.neighbors.getD [], m.families.isSome ∧ n.families = m.families := by
  have hreads : config.readConfig.families = some (config.families.getD [.ipv4Unicast]) := by
    rw [readConfig]
    cases config.families <;> rfl
  rw [Loads, main] at h
  obtain ⟨holdTime, -, h⟩ := Outcome.bind_eq_ok.mp h
  obtain ⟨neighbors, hneighbors, h⟩ := Outcome.bind_eq_ok.mp h
  obtain ⟨rfl, rfl⟩ := Prod.mk.inj (Outcome.ok.inj h)
  refine ⟨by rw [hreads, Option.getD_some], fun n hn ↦ ?_⟩
  obtain ⟨m, hm, hmn⟩ := Outcome.exists_of_mapM_eq_ok hneighbors n hn
  obtain ⟨_, -, hmn⟩ := Outcome.bind_eq_ok.mp hmn
  obtain ⟨_, -, hmn⟩ := Outcome.bind_eq_ok.mp hmn
  rw [← Outcome.ok.inj hmn]
  match hfamilies : m.families with
  | none =>
    refine Or.inl ?_
    rw [Neighbor.complete, hfamilies, hreads, Option.getD_some]
  | some families =>
    refine Or.inr ⟨m, hm, by rw [hfamilies]; rfl, ?_⟩
    rw [Neighbor.complete, hfamilies]

theorem Loads.exists_families {config : Config} {cfg : BgpSpeaker} {configs : List NeighborConfig}
    (h : config.Loads cfg configs) {n : NeighborConfig} (hn : n ∈ configs) :
    ∃ families, n.families = some families := by
  rcases h.families.2 n hn with hn | ⟨m, -, hm, hn⟩
  · exact ⟨_, hn⟩
  · rw [hn]
    exact Option.isSome_iff_exists.mp hm

end Config

end Ubgpd
