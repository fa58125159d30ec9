import Mathlib.Data.List.Basic
import Ubgpd.Lib.Section
import Ubgpd.Bgp.Messages

/-!
# The sections of an UPDATE

What the three loops of the UPDATE decoder do on a section. An entry of a prefix section is a length
octet and the octets it calls for; an entry of the attribute section is a header and as many octets
as its length field announces. Both are self-delimiting, so a section that is tiled by entries is
tiled in one way.

Each loop has two rules. Standing in front of an entry it reads that entry and moves behind it
(`withdrawnLoop_entry`, `attributeLoop_whole`, `nlriLoop_entry`), and a loop that returned has, if
it did anything, read an entry (`withdrawnLoop_cases`, `nlriLoop_cases`). The first gives the round
trip; the second says what a successful parse has parsed.

## What the length fields delimit

The two loops with a length field stop at the first cursor at or past their section's end. So the
sections the decoder reads are the ones the length fields delimit only if those end on the boundary
of an entry: `readInSections_iff`. Otherwise the last entry of a section takes octets of the next
one, or the attribute loop stops early and the announced routes begin inside the attributes.
-/

namespace Ubgpd

/-! ## Entries -/

/-- A length octet and the octets it calls for. -/
def WholePrefix (o : Octets) : Prop := ∃ plen s, o = plen :: s ∧ s.length = octetsOfLen plen

/-- A whole prefix that reads as `n`. -/
def PrefixEntry (o : Octets) (n : Nlri) : Prop := WholePrefix o ∧ Nlri.fromIpv4Octets o = .ok n

/-- An attribute header and as many value octets as its length field announces. -/
def WholeAttribute (o : Octets) : Prop :=
  (∃ flags code len v, isExtendedLen flags = false ∧ o = flags :: code :: len :: v ∧
    v.length = len.toNat) ∨
  (∃ flags code l v, isExtendedLen flags = true ∧ o = flags :: code :: (l ++ v) ∧ l.length = 2 ∧
    v.length = ofBe l)

/-- A whole attribute that reads as `a`. -/
def AttributeEntry (o : Octets) (a : PathAttribute) : Prop :=
  WholeAttribute o ∧ PathAttribute.fromOctets o = .ok a

theorem WholePrefix.ne_nil {o : Octets} (h : WholePrefix o) : o ≠ [] := by
  obtain ⟨plen, s, rfl, -⟩ := h
  exact List.cons_ne_nil _ _

theorem WholeAttribute.ne_nil {o : Octets} (h : WholeAttribute o) : o ≠ [] := by
  rcases h with ⟨_, _, _, _, -, rfl, -⟩ | ⟨_, _, _, _, -, rfl, -, -⟩
  · exact List.cons_ne_nil _ _
  · exact List.cons_ne_nil _ _

theorem selfDelimiting_wholePrefix : SelfDelimiting WholePrefix := by
  rintro o o' ⟨plen, s, rfl, hs⟩ ⟨plen', s', rfl, hs'⟩ hpre
  obtain ⟨rfl, -⟩ := List.cons_prefix_cons.mp hpre
  exact hpre.eq_of_length (by rw [List.length_cons, List.length_cons, hs, hs'])

theorem selfDelimiting_wholeAttribute : SelfDelimiting WholeAttribute := by
  rintro o o' h h' hpre
  rcases h with ⟨f, c, len, v, hf, rfl, hv⟩ | ⟨f, c, l, v, hf, rfl, hl, hv⟩ <;>
    rcases h' with ⟨f', c', len', v', hf', rfl, hv'⟩ | ⟨f', c', l', v', hf', rfl, hl', hv'⟩ <;>
      obtain ⟨rfl, hrest⟩ := List.cons_prefix_cons.mp hpre <;>
        obtain ⟨rfl, hvalue⟩ := List.cons_prefix_cons.mp hrest
  · obtain ⟨rfl, -⟩ := List.cons_prefix_cons.mp hvalue
    exact hpre.eq_of_length (by simp [hv, hv'])
  · rw [hf] at hf'
    exact Bool.noConfusion hf'
  · rw [hf] at hf'
    exact Bool.noConfusion hf'
  · have hll : l = l' := by
      refine List.IsPrefix.eq_of_length ?_ (hl.trans hl'.symm)
      exact List.prefix_of_prefix_length_le ((List.prefix_append l v).trans hvalue)
        (List.prefix_append l' v') (hl.trans hl'.symm).le
    subst hll
    exact hpre.eq_of_length (by simp [hv, hv'])

theorem wholePrefix_toOctets (n : Nlri) : WholePrefix n.toOctets := by
  obtain ⟨s, hs, hlen⟩ := n.toOctets_eq_cons
  exact ⟨_, s, hs, hlen⟩

theorem prefixEntry_toOctets {n : Nlri} (h : n.net.afi = .ipv4) :
    PrefixEntry n.toOctets n.canonical := by
  refine ⟨wholePrefix_toOctets n, ?_⟩
  have hread := n.fromOctetsOf_toOctets
  rw [h] at hread
  exact hread

theorem wholeAttribute_toOctets {a : PathAttribute} (h : a.value.toOctets.length < 2 ^ 16) :
    WholeAttribute a.toOctets := by
  by_cases hext : a.value.toOctets.length > 255
  · refine Or.inr ⟨flagOctet (decide (a.value.toOctets.length > 255)) a.isPartial a.transitive
      a.optional, a.value.code, toBe 2 a.value.toOctets.length, a.value.toOctets, ?_, ?_,
      length_toBe _ _, ?_⟩
    · exact (isExtendedLen_flagOctet _ _ _ _).trans (decide_eq_true hext)
    · rw [PathAttribute.toOctets, lengthOctets, if_pos hext, Nat.shiftRight_eq_div_pow]
      simp [toBe]
    · rw [ofBe_toBe_of_lt (by omega)]
  · refine Or.inl ⟨flagOctet (decide (a.value.toOctets.length > 255)) a.isPartial a.transitive
      a.optional, a.value.code, UInt8.ofNat a.value.toOctets.length, a.value.toOctets, ?_, ?_,
      ?_⟩
    · exact (isExtendedLen_flagOctet _ _ _ _).trans (decide_eq_false hext)
    · rw [PathAttribute.toOctets, lengthOctets, if_neg hext]
      rfl
    · rw [UInt8.toNat_ofNat']
      omega

namespace BgpUpdateMessage

/-! ## The loop over withdrawn routes -/

theorem withdrawnLoop_done {src : Octets} {wdl used i : ℕ} {wd : List Nlri} (h : ¬used < wdl) :
    withdrawnLoop src wdl used i wd = .ok (wd, i) := by rw [withdrawnLoop, dif_neg h]

theorem withdrawnLoop_entry {src o t : Octets} {wdl used i : ℕ} {wd : List Nlri} {n : Nlri}
    (hlt : used < wdl) (ho : PrefixEntry o n) (hd : src.drop i = o ++ t) :
    withdrawnLoop src wdl used i wd
      = withdrawnLoop src wdl (used + o.length) (i + o.length) (wd ++ [n]) := by
  obtain ⟨⟨plen, s, rfl, hs⟩, hread⟩ := ho
  obtain ⟨hplen, -, hmax⟩ := Nlri.of_fromOctets hread
  have hlen : (plen :: s).length = octetsOfLen plen + 1 := by rw [List.length_cons, hs]
  have hblen : blen n = octetsOfLen plen + 1 := by rw [blen, hplen]
  have hfits : i + (octetsOfLen plen + 1) ≤ src.length := by
    have h := congrArg List.length hd
    rw [List.length_drop, List.length_append, hlen] at h
    omega
  have hcut := slice_of_drop (ε := BgpError) hd (List.cons_ne_nil _ _)
  rw [hlen] at hcut
  rw [withdrawnLoop, dif_pos hlt, if_neg (by omega), octetAt_of_drop hd, Outcome.ok_bind,
    prefixBytes_of_le hmax, Outcome.mapErr_ok, Outcome.ok_bind, if_neg (by omega), hcut,
    Outcome.ok_bind, hread, Outcome.mapErr_ok, Outcome.ok_bind, hblen, hlen]

theorem withdrawnLoop_cases {src : Octets} {wdl used i : ℕ} {wd : List Nlri} {r : List Nlri × ℕ}
    (hlt : used < wdl) (h : withdrawnLoop src wdl used i wd = .ok r) :
    (src.length ≤ i ∧ r = (wd, i)) ∨ ∃ o t n, PrefixEntry o n ∧ src.drop i = o ++ t ∧
      withdrawnLoop src wdl (used + o.length) (i + o.length) (wd ++ [n]) = .ok r := by
  have hkeep := h
  rw [withdrawnLoop, dif_pos hlt] at h
  split at h
  · rename_i hge
    obtain rfl := Outcome.ok.inj h
    exact Or.inl ⟨hge, rfl⟩
  · obtain ⟨plen, hplen, h⟩ := Outcome.bind_eq_ok.mp h
    obtain ⟨pb, hpb, h⟩ := Outcome.bind_eq_ok.mp h
    obtain ⟨-, rfl⟩ := prefixBytes_eq_ok.mp (Outcome.mapErr_eq_ok.mp hpb)
    split at h
    · exact absurd h (Outcome.err_ne_ok _ _)
    · obtain ⟨o, ho, h⟩ := Outcome.bind_eq_ok.mp h
      obtain ⟨n, hn, -⟩ := Outcome.bind_eq_ok.mp h
      have hread := Outcome.mapErr_eq_ok.mp hn
      have hd := drop_of_slice ho
      obtain ⟨s, rfl, hs⟩ := exists_eq_cons_of_slice hplen ho
      have hentry : PrefixEntry (plen :: s) n := ⟨⟨plen, s, rfl, hs⟩, hread⟩
      exact Or.inr ⟨_, _, n, hentry, hd, by rw [← withdrawnLoop_entry hlt hentry hd, hkeep]⟩

theorem withdrawnLoop_parses {s : Octets} {ns : List Nlri} (h : Parses PrefixEntry s ns) :
    ∀ {src t : Octets} {used i : ℕ} {wd : List Nlri}, src.drop i = s ++ t →
      withdrawnLoop src (used + s.length) used i wd = .ok (wd ++ ns, i + s.length) := by
  induction h with
  | nil =>
    intro src t used i wd _
    rw [withdrawnLoop_done (by simp)]
    simp
  | @cons o s n ns ho hs ih =>
    intro src t used i wd hd
    have hpos : 0 < o.length := List.length_pos_of_ne_nil ho.1.ne_nil
    rw [List.append_assoc] at hd
    have hlen : used + (o ++ s).length = used + o.length + s.length := by
      rw [List.length_append, Nat.add_assoc]
    rw [withdrawnLoop_entry (by rw [List.length_append]; omega) ho hd, hlen,
      ih (drop_add_length hd), List.append_assoc, List.singleton_append, List.length_append,
      Nat.add_assoc]

/-- A loop that returned on a tiled section has parsed that section and stands at its end. -/
theorem withdrawnLoop_tiled {s : Octets} (h : Tiled WholePrefix s) :
    ∀ {src t : Octets} {used i : ℕ} {wd : List Nlri} {r : List Nlri × ℕ}, src.drop i = s ++ t →
      withdrawnLoop src (used + s.length) used i wd = .ok r →
        ∃ ns, r = (wd ++ ns, i + s.length) ∧ Parses PrefixEntry s ns := by
  induction h with
  | nil =>
    intro src t used i wd r _ hr
    rw [withdrawnLoop_done (by simp)] at hr
    obtain rfl := Outcome.ok.inj hr
    exact ⟨[], by simp, Parses.nil⟩
  | @cons o s ho hs ih =>
    intro src t used i wd r hd hr
    have hpos : 0 < o.length := List.length_pos_of_ne_nil ho.ne_nil
    rw [List.append_assoc] at hd
    have hlen : used + (o ++ s).length = used + o.length + s.length := by
      rw [List.length_append, Nat.add_assoc]
    rw [hlen] at hr
    rcases withdrawnLoop_cases (by omega) hr with ⟨hge, -⟩ | ⟨o', t', n, ho', hd', hr'⟩
    · rw [List.drop_eq_nil_of_le hge] at hd
      exact absurd (List.append_eq_nil_iff.mp hd.symm).1 ho.ne_nil
    · obtain rfl : o = o' := selfDelimiting_wholePrefix.eq_of_prefix ho ho'.1
        ⟨_, hd.symm⟩ ⟨_, hd'.symm⟩
      obtain ⟨ns, rfl, hns⟩ := ih (drop_add_length hd) hr'
      exact ⟨n :: ns, by simp [Nat.add_assoc], Parses.cons ho' hns⟩

/-! ## The loop over path attributes -/

theorem attributeLoop_done {src : Octets} {atl used i : ℕ} {pa : List PathAttribute}
    (h : ¬used < atl) : attributeLoop src atl used i pa = .ok (pa, i) := by
  rw [attributeLoop, dif_neg h]

/-- In front of a whole attribute the loop hands it to the attribute decoder and moves behind it. -/
theorem attributeLoop_whole {src o t : Octets} {atl used i : ℕ} {pa : List PathAttribute}
    (hlt : used < atl) (ho : WholeAttribute o) (hd : src.drop i = o ++ t) :
    attributeLoop src atl used i pa = (PathAttribute.fromOctets o >>= fun n ↦
      attributeLoop src atl (used + o.length) (i + o.length) (pa ++ [n])) := by
  have hcut := slice_of_drop (ε := BgpError) hd ho.ne_nil
  have hfits : i + o.length ≤ src.length := by
    have h := congrArg List.length hd
    have hpos : 0 < o.length := List.length_pos_of_ne_nil ho.ne_nil
    rw [List.length_drop, List.length_append] at h
    omega
  rcases ho with ⟨flags, code, len, v, hf, rfl, hv⟩ | ⟨flags, code, l, v, hf, rfl, hl, hv⟩
  · have hlen : (flags :: code :: len :: v).length = 3 + len.toNat := by
      rw [List.length_cons, List.length_cons, List.length_cons, hv]
      omega
    have hatn : (octetAt src (i + 2) : Outcome BgpError UInt8) = .ok len := by
      refine octetAt_of_drop (s := v ++ t) ?_
      rw [← List.drop_drop, hd]
      rfl
    rw [hlen] at hcut hfits ⊢
    rw [attributeLoop, dif_pos hlt, if_neg (by omega), octetAt_of_drop hd, Outcome.ok_bind, hf]
    dsimp only
    rw [if_neg (by omega), hatn, Outcome.ok_bind, if_neg (by omega), hcut, Outcome.ok_bind]
  · have hlen : (flags :: code :: (l ++ v)).length = 4 + ofBe l := by
      rw [List.length_cons, List.length_cons, List.length_append, hv, hl]
      omega
    have hatn : (slice src (i + 2) (i + 4) : Outcome BgpError Octets) = .ok l := by
      have h2 : src.drop (i + 2) = l ++ (v ++ t) := by
        rw [← List.drop_drop, hd, ← List.append_assoc]
        rfl
      have h := slice_of_drop (ε := BgpError) h2 (List.ne_nil_of_length_pos (by omega))
      rwa [hl] at h
    rw [hlen] at hcut hfits ⊢
    rw [attributeLoop, dif_pos hlt, if_neg (by omega), octetAt_of_drop hd, Outcome.ok_bind, hf]
    dsimp only
    rw [if_neg (by omega), hatn, Outcome.ok_bind, if_neg (by omega), hcut, Outcome.ok_bind]

theorem attributeLoop_parses {s : Octets} {as : List PathAttribute}
    (h : Parses AttributeEntry s as) :
    ∀ {src t : Octets} {used i : ℕ} {pa : List PathAttribute}, src.drop i = s ++ t →
      attributeLoop src (used + s.length) used i pa = .ok (pa ++ as, i + s.length) := by
  induction h with
  | nil =>
    intro src t used i pa _
    rw [attributeLoop_done (by simp)]
    simp
  | @cons o s a as ho hs ih =>
    intro src t used i pa hd
    have hpos : 0 < o.length := List.length_pos_of_ne_nil ho.1.ne_nil
    rw [List.append_assoc] at hd
    have hlen : used + (o ++ s).length = used + o.length + s.length := by
      rw [List.length_append, Nat.add_assoc]
    rw [attributeLoop_whole (by rw [List.length_append]; omega) ho.1 hd, ho.2, Outcome.ok_bind,
      hlen, ih (drop_add_length hd), List.append_assoc, List.singleton_append, List.length_append,
      Nat.add_assoc]

theorem attributeLoop_tiled {s : Octets} (h : Tiled WholeAttribute s) :
    ∀ {src t : Octets} {used i : ℕ} {pa : List PathAttribute} {r : List PathAttribute × ℕ},
      src.drop i = s ++ t → attributeLoop src (used + s.length) used i pa = .ok r →
        ∃ as, r = (pa ++ as, i + s.length) ∧ Parses AttributeEntry s as := by
  induction h with
  | nil =>
    intro src t used i pa r _ hr
    rw [attributeLoop_done (by simp)] at hr
    obtain rfl := Outcome.ok.inj hr
    exact ⟨[], by simp, Parses.nil⟩
  | @cons o s ho hs ih =>
    intro src t used i pa r hd hr
    have hpos : 0 < o.length := List.length_pos_of_ne_nil ho.ne_nil
    rw [List.append_assoc] at hd
    have hlen : used + (o ++ s).length = used + o.length + s.length := by
      rw [List.length_append, Nat.add_assoc]
    rw [hlen, attributeLoop_whole (by omega) ho hd] at hr
    obtain ⟨a, ha, hr'⟩ := Outcome.bind_eq_ok.mp hr
    obtain ⟨as, rfl, has⟩ := ih (drop_add_length hd) hr'
    exact ⟨a :: as, by simp [Nat.add_assoc], Parses.cons ⟨ho, ha⟩ has⟩

/-! ## The loop over announced routes -/

theorem nlriLoop_entry {src o t : Octets} {i : ℕ} {routes : List Nlri} {n : Nlri}
    (ho : PrefixEntry o n) (hd : src.drop i = o ++ t) :
    nlriLoop src i routes = nlriLoop src (i + o.length) (routes ++ [n]) := by
  obtain ⟨⟨plen, s, rfl, hs⟩, hread⟩ := ho
  obtain ⟨hplen, -, hmax⟩ := Nlri.of_fromOctets hread
  have hlen : (plen :: s).length = octetsOfLen plen + 1 := by rw [List.length_cons, hs]
  have hblen : blen n = octetsOfLen plen + 1 := by rw [blen, hplen]
  have hfits : i + (octetsOfLen plen + 1) ≤ src.length := by
    have h := congrArg List.length hd
    rw [List.length_drop, List.length_append, hlen] at h
    omega
  have hcut := slice_of_drop (ε := BgpError) hd (List.cons_ne_nil _ _)
  rw [hlen] at hcut
  rw [nlriLoop, dif_pos (by omega), octetAt_of_drop hd, Outcome.ok_bind, prefixBytes_of_le hmax,
    Outcome.mapErr_ok, Outcome.ok_bind, hcut, Outcome.ok_bind, hread, Outcome.mapErr_ok,
    Outcome.ok_bind, hblen, hlen]

theorem nlriLoop_done {src : Octets} {i : ℕ} {routes : List Nlri} (h : ¬i < src.length) :
    nlriLoop src i routes = .ok routes := by
  rw [nlriLoop, dif_neg h]

theorem nlriLoop_cases {src : Octets} {i : ℕ} {routes r : List Nlri} (hlt : i < src.length)
    (h : nlriLoop src i routes = .ok r) :
    ∃ o t n, PrefixEntry o n ∧ src.drop i = o ++ t ∧
      nlriLoop src (i + o.length) (routes ++ [n]) = .ok r := by
  have hkeep := h
  rw [nlriLoop, dif_pos hlt] at h
  obtain ⟨plen, hplen, h⟩ := Outcome.bind_eq_ok.mp h
  obtain ⟨pb, hpb, h⟩ := Outcome.bind_eq_ok.mp h
  obtain ⟨-, rfl⟩ := prefixBytes_eq_ok.mp (Outcome.mapErr_eq_ok.mp hpb)
  obtain ⟨o, ho, h⟩ := Outcome.bind_eq_ok.mp h
  obtain ⟨n, hn, -⟩ := Outcome.bind_eq_ok.mp h
  have hread := Outcome.mapErr_eq_ok.mp hn
  have hd := drop_of_slice ho
  obtain ⟨s, rfl, hs⟩ := exists_eq_cons_of_slice hplen ho
  have hentry : PrefixEntry (plen :: s) n := ⟨⟨plen, s, rfl, hs⟩, hread⟩
  exact ⟨_, _, n, hentry, hd, by rw [← nlriLoop_entry hentry hd, hkeep]⟩

theorem nlriLoop_parses {s src : Octets} {ns routes : List Nlri} {i : ℕ}
    (h : Parses PrefixEntry s ns) (hd : src.drop i = s) :
    nlriLoop src i routes = .ok (routes ++ ns) :=
  loop_of_parses (fun h ↦ h.1.ne_nil) (fun _ ↦ nlriLoop_entry) nlriLoop_done (hd ▸ h)

theorem parses_of_nlriLoop {src : Octets} {i : ℕ} {routes r : List Nlri}
    (h : nlriLoop src i routes = .ok r) :
    ∃ ns, r = routes ++ ns ∧ Parses PrefixEntry (src.drop i) ns :=
  parses_of_loop (fun h ↦ h.1.ne_nil) nlriLoop_cases nlriLoop_done h

/-! ## The three sections together -/

/-- `b` holds the octets of three sections behind their length fields. -/
def Layout (b wd pa nl : Octets) : Prop :=
  ∃ l l', b = l ++ (wd ++ (l' ++ (pa ++ nl))) ∧ l.length = 2 ∧ l'.length = 2 ∧
    ofBe l = wd.length ∧ ofBe l' = pa.length

/-- The cursor behind the first length field, behind the withdrawn routes, behind the second length
field, and behind the attributes. -/
theorem Layout.drops {l wd l' pa nl b : Octets} (hb : b = l ++ (wd ++ (l' ++ (pa ++ nl))))
    (hl : l.length = 2) (hl' : l'.length = 2) :
    b.drop 2 = wd ++ (l' ++ (pa ++ nl)) ∧ b.drop (2 + wd.length) = l' ++ (pa ++ nl) ∧
      b.drop (2 + wd.length + 2) = pa ++ nl ∧ b.drop (2 + wd.length + 2 + pa.length) = nl := by
  have h1 : b.drop 2 = wd ++ (l' ++ (pa ++ nl)) := by rw [hb, ← hl, List.drop_left]
  have h2 := drop_add_length h1
  have h3 : b.drop (2 + wd.length + 2) = pa ++ nl := by
    have h := drop_add_length h2
    rwa [hl'] at h
  exact ⟨h1, h2, h3, drop_add_length h3⟩

/-- On a layout the decoder is the three loops on the three sections, as soon as the first loop
stops where the withdrawn routes do. -/
theorem tryFrom_of_layout {b wd pa nl : Octets} {ns : List Nlri} (h : Layout b wd pa nl)
    (hw : withdrawnLoop b wd.length 0 2 [] = .ok (ns, 2 + wd.length)) :
    tryFrom b = (attributeLoop b pa.length 0 (2 + wd.length + 2) [] >>= fun r ↦
      nlriLoop b r.2 [] >>= fun routes ↦
        Outcome.ok (ε := BgpError) (BgpUpdateMessage.mk ns r.1 routes)) := by
  obtain ⟨l, l', hb, hl, hl', hwd, hpa⟩ := h
  obtain ⟨-, h2, -, -⟩ := Layout.drops hb hl hl'
  have hlen : b.length = 2 + wd.length + 2 + pa.length + nl.length := by
    rw [hb]
    simp only [List.length_append, hl, hl']
    omega
  have hfirst : (slice b 0 2 : Outcome BgpError Octets) = .ok l := by
    rw [hb, ← hl]
    exact slice_zero_append _ _
  have hsecond : (slice b (2 + wd.length) (2 + wd.length + 2) : Outcome BgpError Octets)
      = .ok l' := by
    have h := slice_of_drop (ε := BgpError) h2 (List.ne_nil_of_length_pos (by omega))
    rwa [hl'] at h
  rw [tryFrom, if_neg (by omega), hfirst, Outcome.ok_bind, hwd, hw, Outcome.ok_bind]
  dsimp only
  rw [if_neg (by omega), hsecond, Outcome.ok_bind, hpa, if_neg (by omega)]

/-- **Three parsed sections are read.** -/
theorem tryFrom_of_parses {b wd pa nl : Octets} {u : BgpUpdateMessage} (h : Layout b wd pa nl)
    (hwd : Parses PrefixEntry wd u.withdrawnRoutes)
    (hpa : Parses AttributeEntry pa u.pathAttributes) (hnl : Parses PrefixEntry nl u.nlri) :
    tryFrom b = .ok u := by
  obtain ⟨l, l', hb, hl, hl', -, -⟩ := id h
  obtain ⟨h1, -, h3, h4⟩ := Layout.drops hb hl hl'
  have hw : withdrawnLoop b (0 + wd.length) 0 2 [] = .ok (u.withdrawnRoutes, 2 + wd.length) :=
    withdrawnLoop_parses hwd h1
  have ha : attributeLoop b (0 + pa.length) 0 (2 + wd.length + 2) []
      = .ok (u.pathAttributes, 2 + wd.length + 2 + pa.length) := attributeLoop_parses hpa h3
  rw [Nat.zero_add] at hw ha
  rw [tryFrom_of_layout h hw, ha, Outcome.ok_bind]
  dsimp only
  rw [nlriLoop_parses hnl h4, Outcome.ok_bind]
  rfl

/-- **What was read are the sections**, when the first two are tiled by entries. -/
theorem parses_of_tryFrom {b wd pa nl : Octets} {u : BgpUpdateMessage} (h : Layout b wd pa nl)
    (hwd : Tiled WholePrefix wd) (hpa : Tiled WholeAttribute pa) (hu : tryFrom b = .ok u) :
    Parses PrefixEntry wd u.withdrawnRoutes ∧ Parses AttributeEntry pa u.pathAttributes ∧
      Parses PrefixEntry nl u.nlri := by
  obtain ⟨l, l', hb, hl, hl', hlw, -⟩ := id h
  obtain ⟨h1, -, h3, h4⟩ := Layout.drops hb hl hl'
  have hw : ∃ r, withdrawnLoop b wd.length 0 2 [] = .ok r := by
    rw [tryFrom, if_neg (by rw [hb, List.length_append]; omega)] at hu
    obtain ⟨l₁, hl₁, hu⟩ := Outcome.bind_eq_ok.mp hu
    obtain ⟨r, hr, -⟩ := Outcome.bind_eq_ok.mp hu
    rw [hb, ← hl, slice_zero_append] at hl₁
    cases hl₁
    exact ⟨r, hlw ▸ hr⟩
  obtain ⟨r, hr⟩ := hw
  rw [← Nat.zero_add wd.length] at hr
  obtain ⟨ns, rfl, hns⟩ := withdrawnLoop_tiled hwd h1 hr
  rw [Nat.zero_add] at hr
  rw [tryFrom_of_layout h hr] at hu
  obtain ⟨r, hr, hu⟩ := Outcome.bind_eq_ok.mp hu
  rw [← Nat.zero_add pa.length] at hr
  obtain ⟨as, rfl, has⟩ := attributeLoop_tiled hpa h3 hr
  obtain ⟨routes, hroutes, hu⟩ := Outcome.bind_eq_ok.mp hu
  obtain ⟨ms, rfl, hms⟩ := parses_of_nlriLoop hroutes
  obtain rfl := Outcome.ok.inj hu
  rw [h4] at hms
  exact ⟨hns, has, hms⟩

/-! ## The sections the length fields delimit -/

/-- The length of the withdrawn routes: the first two octets. -/
def withdrawnLen (b : Octets) : ℕ := ofBe (b.take 2)

def withdrawnSection (b : Octets) : Octets := (b.drop 2).take (withdrawnLen b)

/-- The length of the path attributes: the two octets behind the withdrawn routes. -/
def attributesLen (b : Octets) : ℕ := ofBe ((b.drop (2 + withdrawnLen b)).take 2)

def attributesSection (b : Octets) : Octets :=
  (b.drop (2 + withdrawnLen b + 2)).take (attributesLen b)

def nlriSection (b : Octets) : Octets := b.drop (2 + withdrawnLen b + 2 + attributesLen b)

/-- `u` is what the sections of `b` say, each read completely and by itself. -/
structure ReadInSections (b : Octets) (u : BgpUpdateMessage) : Prop where
  fits : 2 + withdrawnLen b + 2 + attributesLen b ≤ b.length
  withdrawn : Parses PrefixEntry (withdrawnSection b) u.withdrawnRoutes
  attributes : Parses AttributeEntry (attributesSection b) u.pathAttributes
  nlri : Parses PrefixEntry (nlriSection b) u.nlri

/-- The two delimited sections are in the buffer and end on the boundary of an entry. This is about
lengths only. -/
structure EndsOnBoundaries (b : Octets) : Prop where
  fits : 2 + withdrawnLen b + 2 + attributesLen b ≤ b.length
  withdrawn : Tiled WholePrefix (withdrawnSection b)
  attributes : Tiled WholeAttribute (attributesSection b)

private theorem cut_at (b : Octets) (i n : ℕ) :
    (b.drop i).take n ++ b.drop (i + n) = b.drop i := by
  rw [← List.drop_drop, List.take_append_drop]

theorem layout_of_fits {b : Octets} (h : 2 + withdrawnLen b + 2 + attributesLen b ≤ b.length) :
    Layout b (withdrawnSection b) (attributesSection b) (nlriSection b) := by
  refine ⟨b.take 2, (b.drop (2 + withdrawnLen b)).take 2, ?_, ?_, ?_, ?_, ?_⟩
  · have h4 := cut_at b (2 + withdrawnLen b + 2) (attributesLen b)
    have h2 := cut_at b 2 (withdrawnLen b)
    rw [attributesSection, nlriSection, h4, cut_at, withdrawnSection, h2, List.take_append_drop]
  · rw [List.length_take]
    omega
  · rw [List.length_take, List.length_drop]
    omega
  · rw [withdrawnSection, List.length_take, List.length_drop, withdrawnLen] at *
    omega
  · rw [attributesSection, List.length_take, List.length_drop, attributesLen] at *
    omega

/-- **Section boundaries.** An UPDATE that parses is read section by section exactly when the two
length fields fall on the boundaries of the entries they count. -/
theorem readInSections_iff {b : Octets} {u : BgpUpdateMessage} (h : tryFrom b = .ok u) :
    ReadInSections b u ↔ EndsOnBoundaries b := by
  constructor
  · rintro ⟨hfits, hwd, hpa, -⟩
    exact ⟨hfits, hwd.tiled fun _ _ ho ↦ ho.1, hpa.tiled fun _ _ ho ↦ ho.1⟩
  · rintro ⟨hfits, hwd, hpa⟩
    obtain ⟨hw, ha, hn⟩ := parses_of_tryFrom (layout_of_fits hfits) hwd hpa h
    exact ⟨hfits, hw, ha, hn⟩

/-- One withdrawn prefix, no attributes, one announced prefix. -/
theorem readInSections_one : ReadInSections [0, 2, 8, 10, 0, 0, 16, 172, 16]
      ⟨[⟨.v4 ⟨0x0A000000, 8, by decide⟩⟩], [], [⟨.v4 ⟨0xAC100000, 16, by decide⟩⟩]⟩
    ↔ EndsOnBoundaries [0, 2, 8, 10, 0, 0, 16, 172, 16] :=
  readInSections_iff (by decide +kernel)

/-- The length field counts one octet of withdrawn routes, and two are read: the prefix `10/8`
takes its second octet from behind the section. -/
theorem not_forall_readInSections :
    ¬∀ b u, tryFrom b = .ok u → ReadInSections b u := by
  intro h
  have hread : tryFrom [0, 1, 8, 10, 0, 0]
      = .ok ⟨[⟨.v4 ⟨0x0A000000, 8, by decide⟩⟩], [], []⟩ := by decide +kernel
  obtain ⟨-, hwd, -, -⟩ := h _ _ hread
  have hsection : withdrawnSection [0, 1, 8, 10, 0, 0] = [8] := by decide
  rw [hsection] at hwd
  generalize hs : ([8] : Octets) = s at hwd
  cases hwd with
  | @cons o s n ns ho hs' =>
    obtain ⟨⟨plen, v, rfl, hv⟩, -⟩ := ho
    obtain ⟨rfl, hrest⟩ := List.cons.inj hs
    obtain ⟨rfl, -⟩ := List.append_eq_nil_iff.mp hrest.symm
    exact absurd hv (by decide)

end BgpUpdateMessage

end Ubgpd
