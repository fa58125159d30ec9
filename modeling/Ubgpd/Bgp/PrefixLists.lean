import Ubgpd.Bgp.AttributePanics

/-!
# The four lists of prefixes

A list of prefixes is read in four places: in the two multiprotocol attributes, and in the withdrawn
and the announced routes of an UPDATE. The four loops look alike and test different things. Two of
them compare the end of an entry with the end of the buffer, and return an error when it lies beyond
(`Mpunlri::try_from`, the withdrawn routes); the other two take the slice at once
(`Mpnlri::try_from`, the announced routes).

So on a list that is not cut short in the middle of an entry the four do the same, and on one that
is, two return an error and two panic: `tryFrom_agree_iff` for the attributes, and
`withdrawn_agree_iff` for the sections of an UPDATE.

## The grammar

`PrefixOf` says what an entry is and which prefix it spells, without the code that reads it:
a length that the family has, and as many octets as it calls for, which begin the address.
`Mpunlri.tryFrom_iff_grammar` reads MP_UNREACH_NLRI off it.
-/

namespace Ubgpd

/-! ## Entries -/

/-- An entry of a prefix list: a length of at most 32 or 128, and the octets that begin the address,
which is filled up with zeros. -/
def PrefixOf (afi : Afi) (o : Octets) (n : Nlri) : Prop :=
  ∃ (plen : UInt8) (s : Octets) (h : plen.toNat ≤ afi.maxLen), o = plen :: s ∧
    s.length = (plen.toNat + 7) / 8 ∧ n = ⟨.ofNat afi (ofBe (resize s afi.addrLen)) plen h⟩

theorem mpEntry_iff {afi : Afi} {o : Octets} {n : Nlri} : MpEntry afi o n ↔ PrefixOf afi o n := by
  constructor
  · rintro ⟨⟨plen, s, rfl, hs⟩, hread⟩
    have hle := (Nlri.of_fromOctetsOf hread).2.2
    rw [fromOctetsOf_eq hle hs] at hread
    exact ⟨plen, s, hle, rfl, hs, (Outcome.ok.inj hread).symm⟩
  · rintro ⟨plen, s, hle, rfl, hs, rfl⟩
    exact ⟨⟨plen, s, rfl, hs⟩, fromOctetsOf_eq hle hs⟩

/-- A value with its length in front, as the attribute decoder hands it over. -/
def lengthPrefixed (v : Octets) : Octets := UInt8.ofNat v.length :: v

/-! ## MP_UNREACH_NLRI -/

/-- The octets of an MP_UNREACH_NLRI value: a known family in three octets, and entries of the
family up to the end. -/
def Mpunlri.Grammar (v : Octets) (m : Mpunlri) : Prop :=
  ∃ s, v = toBe 2 m.af.afi.toU16.toNat ++ m.af.safi.toU8 :: s ∧
    Parses (PrefixOf m.af.afi) s m.nlris

theorem Mpunlri.spelt_iff {v : Octets} {m : Mpunlri} : Mpunlri.Spelt v m ↔ Mpunlri.Grammar v m := by
  have hentry : MpEntry m.af.afi = PrefixOf m.af.afi := by
    funext o n
    exact propext mpEntry_iff
  rw [Spelt, Grammar, hentry]

/-- **MP_UNREACH_NLRI is read by its grammar.** A value of up to 255 octets does not panic, and
reads as what the grammar says and as nothing else. -/
theorem Mpunlri.tryFrom_iff_grammar {v : Octets} (h : v.length ≤ 255) :
    Mpunlri.tryFrom (lengthPrefixed v) ≠ .panic ∧
      ∀ m, Mpunlri.tryFrom (lengthPrefixed v) = .ok m ↔ Mpunlri.Grammar v m := by
  refine ⟨Mpunlri.tryFrom_ne_panic _, fun m ↦ ?_⟩
  rw [lengthPrefixed, Mpunlri.tryFrom_eq_ok (toNat_ofNat_of_le (Nat.not_lt.mpr h)), spelt_iff]

/-- `10.0.0.0/8` and `172.16.0.0/12` in IPv4 unicast. -/
theorem Mpunlri.tryFrom_iff_grammar_twoPrefixes :
    Mpunlri.tryFrom (lengthPrefixed [0, 1, 1, 8, 10, 12, 172, 16]) ≠ .panic ∧
      ∀ m, Mpunlri.tryFrom (lengthPrefixed [0, 1, 1, 8, 10, 12, 172, 16]) = .ok m ↔
        Mpunlri.Grammar [0, 1, 1, 8, 10, 12, 172, 16] m :=
  Mpunlri.tryFrom_iff_grammar (by decide)

/-! ## MP_REACH_NLRI against MP_UNREACH_NLRI -/

namespace Mpnlri

/-- **The loop panics** in the middle of a prefix, and only there. -/
theorem nlriLoop_eq_panic_iff {afi : Afi} {src : Octets} (nlris : List Nlri) (i : ℕ) :
    nlriLoop afi src src.length i nlris = .panic ↔ CutShortIn afi (src.drop i) := by
  refine prefixLoop_eq_panic_iff nlriLoop_entry ?_ ?_ nlriLoop_done
  · -- the slice is taken without a test
    rintro i ns hlt ⟨plen, t, ht, hle, hshort⟩
    have hlen := length_of_drop_cons ht
    rw [nlriLoop, dif_pos hlt, octetAt_of_drop ht, Outcome.ok_bind, prefixBytes_of_le hle,
      Outcome.mapErr_ok, Outcome.ok_bind, slice_eq_panic.mpr (by omega)]
    rfl
  · -- the error comes before the slice
    intro i ns plen t hlt ht hgt
    rw [nlriLoop, dif_pos hlt, octetAt_of_drop ht, Outcome.ok_bind, prefixBytes, if_pos hgt]
    exact Outcome.err_ne_panic _

end Mpnlri

/-- The octets of an MP_REACH_NLRI value: family, length of the next hop, next hop, prefixes. -/
def reachValue (afi : Afi) (safi : Safi) (nh w : Octets) : Octets :=
  toBe 2 afi.toU16.toNat ++ safi.toU8 :: UInt8.ofNat nh.length :: (nh ++ w)

/-- The octets of an MP_UNREACH_NLRI value: family, prefixes. -/
def unreachValue (afi : Afi) (safi : Safi) (w : Octets) : Octets :=
  toBe 2 afi.toU16.toNat ++ safi.toU8 :: w

theorem length_reachValue (afi : Afi) (safi : Safi) (nh w : Octets) :
    (reachValue afi safi nh w).length = 4 + nh.length + w.length := by
  rw [reachValue]
  simp only [List.length_append, List.length_cons, length_toBe]
  omega

theorem length_unreachValue (afi : Afi) (safi : Safi) (w : Octets) :
    (unreachValue afi safi w).length = 3 + w.length := by
  rw [unreachValue]
  simp only [List.length_append, List.length_cons, length_toBe]
  omega

theorem drop_reachValue (afi : Afi) (safi : Safi) (nh w : Octets) :
    (reachValue afi safi nh w).drop (4 + nh.length) = w := by
  rw [← List.drop_drop]
  exact List.drop_left

section Values

variable {afi : Afi} {safi : Safi} {nh w : Octets}

theorem Afi.fromU16_take (afi : Afi) (safi : Safi) (rest : Octets) :
    Afi.fromU16 (UInt16.ofNat (ofBe ((toBe 2 afi.toU16.toNat ++ safi.toU8 :: rest).take 2)))
      = some afi :=
  have hlen : 3 ≤ (toBe 2 afi.toU16.toNat ++ safi.toU8 :: rest).length := by
    rw [List.length_append, length_toBe, List.length_cons]
    omega
  ((header_iff hlen).mpr rfl).1

theorem Mpunlri.tryFrom_unreachValue (hlen : (unreachValue afi safi w).length ≤ 255) :
    Mpunlri.tryFrom (lengthPrefixed (unreachValue afi safi w))
      = (Mpunlri.nlriLoop afi (unreachValue afi safi w) (unreachValue afi safi w).length 3 [] >>=
          fun nlris ↦ .ok ⟨⟨afi, safi⟩, nlris⟩) := by
  have hvlen := length_unreachValue afi safi w
  set v := unreachValue afi safi w
  have hdrop : v.drop 2 = safi.toU8 :: w := rfl
  have hafi : Afi.fromU16 (UInt16.ofNat (ofBe (v.take 2))) = some afi :=
    Afi.fromU16_take afi safi w
  rw [lengthPrefixed, Mpunlri.tryFrom]
  dsimp only
  rw [if_neg (by omega), hafi, Outcome.okOr_some, Outcome.ok_bind, octetAt_of_drop hdrop,
    Outcome.ok_bind, Safi.fromU8_toU8, Outcome.okOr_some, Outcome.ok_bind,
    toNat_ofNat_of_le (Nat.not_lt.mpr hlen)]

variable (hlen : (reachValue afi safi nh w).length ≤ 255)

include hlen

theorem Mpnlri.tryFrom_reachValue :
    Mpnlri.tryFrom (lengthPrefixed (reachValue afi safi nh w))
      = (Mpnlri.nlriLoop afi (reachValue afi safi nh w) (reachValue afi safi nh w).length
          (4 + nh.length) [] >>= fun nlris ↦ .ok ⟨⟨afi, safi⟩, .ofOctets afi nh, nlris⟩) := by
  have hvlen := length_reachValue afi safi nh w
  set v := reachValue afi safi nh w
  have hnhl : (UInt8.ofNat nh.length).toNat = nh.length := toNat_ofNat_of_le (by omega)
  have hdrop₂ : v.drop 2 = safi.toU8 :: UInt8.ofNat nh.length :: (nh ++ w) := rfl
  have hdrop₃ : v.drop 3 = UInt8.ofNat nh.length :: (nh ++ w) := rfl
  have hdrop₄ : v.drop 4 = nh ++ w := rfl
  have hafi : Afi.fromU16 (UInt16.ofNat (ofBe (v.take 2))) = some afi :=
    Afi.fromU16_take afi safi _
  have hcut : (slice v 4 (4 + nh.length) : Outcome BgpError Octets) = .ok nh := by
    rw [slice_eq_ok]
    refine ⟨by omega, ?_⟩
    rw [hdrop₄, Nat.add_sub_cancel_left, List.take_left]
  rw [lengthPrefixed, Mpnlri.tryFrom]
  dsimp only
  rw [if_neg (by omega), hafi, Outcome.okOr_some, Outcome.ok_bind, octetAt_of_drop hdrop₂,
    Outcome.ok_bind, Safi.fromU8_toU8, Outcome.okOr_some, Outcome.ok_bind, octetAt_of_drop hdrop₃,
    Outcome.ok_bind, hnhl, if_neg (by omega), hcut, Outcome.ok_bind,
    toNat_ofNat_of_le (Nat.not_lt.mpr hlen)]

/-- **MP_REACH_NLRI and MP_UNREACH_NLRI treat prefixes alike** exactly when the prefixes do not end
in the middle of an entry. The next hop may have any length. -/
theorem tryFrom_agree_iff :
    Outcome.Agree Mpnlri.nlris Mpunlri.nlris
        (Mpnlri.tryFrom (lengthPrefixed (reachValue afi safi nh w)))
        (Mpunlri.tryFrom (lengthPrefixed (unreachValue afi safi w)))
      ↔ ¬CutShortIn afi w := by
  have hulen : (unreachValue afi safi w).length ≤ 255 := by
    rw [length_reachValue] at hlen
    rw [length_unreachValue]
    omega
  have hdrop : (unreachValue afi safi w).drop 3 = w := rfl
  refine (Outcome.agree_iff_ne_panic (Mpunlri.tryFrom_ne_panic _) fun ns ↦ ?_).trans ?_
  · -- both return what the same octets parse as
    rw [Mpnlri.tryFrom_reachValue hlen, Mpunlri.tryFrom_unreachValue hulen,
      Outcome.exists_bind_ok_iff, Outcome.exists_bind_ok_iff]
    refine exists_congr fun nlris ↦ and_congr_left fun _ ↦ ?_
    rw [Mpnlri.nlriLoop_eq_ok, Mpunlri.nlriLoop_eq_ok, drop_reachValue, hdrop]
  · rw [Mpnlri.tryFrom_reachValue hlen, not_iff_not, Outcome.bind_ok_eq_panic,
      Mpnlri.nlriLoop_eq_panic_iff, drop_reachValue]

end Values

/-- `10.0.0.0/8` with a next hop. -/
theorem tryFrom_agree_iff_onePrefix :
    Outcome.Agree Mpnlri.nlris Mpunlri.nlris
        (Mpnlri.tryFrom (lengthPrefixed (reachValue .ipv4 .nlriUnicast [10, 0, 0, 1] [8, 10])))
        (Mpunlri.tryFrom (lengthPrefixed (unreachValue .ipv4 .nlriUnicast [8, 10])))
      ↔ ¬CutShortIn .ipv4 [8, 10] :=
  tryFrom_agree_iff (by decide)

/-- A prefix of 24 bits with one octet: MP_UNREACH_NLRI is refused, and MP_REACH_NLRI panics. -/
theorem not_forall_tryFrom_agree :
    ¬∀ (afi : Afi) (safi : Safi) (nh w : Octets), nh.length = afi.addrLen →
      (reachValue afi safi nh w).length ≤ 255 → (unreachValue afi safi w).length ≤ 255 →
        Outcome.Agree Mpnlri.nlris Mpunlri.nlris
          (Mpnlri.tryFrom (lengthPrefixed (reachValue afi safi nh w)))
          (Mpunlri.tryFrom (lengthPrefixed (unreachValue afi safi w))) := by
  intro h
  have hpanic : Mpnlri.tryFrom
      (lengthPrefixed (reachValue .ipv4 .nlriUnicast [10, 0, 0, 1] [24, 10])) = .panic := by
    decide +kernel
  have hagree := h .ipv4 .nlriUnicast [10, 0, 0, 1] [24, 10] rfl (by decide) (by decide)
  rw [hpanic] at hagree
  exact hagree

/-! ## The withdrawn routes against the announced ones -/

namespace BgpUpdateMessage

/-- The loop over withdrawn routes compares every end with the end of the buffer. -/
theorem withdrawnLoop_ne_panic {src : Octets} {wdl : ℕ} : ∀ (wd : List Nlri) {k used i : ℕ},
    wdl - used ≤ k → withdrawnLoop src wdl used i wd ≠ .panic := by
  intro wd k
  induction k generalizing wd with
  | zero =>
    intro used i hk
    rw [withdrawnLoop_done (by omega)]
    exact Outcome.ok_ne_panic _
  | succ k ih =>
    intro used i hk
    by_cases hused : used < wdl
    · by_cases hlt : i < src.length
      · rcases prefix_cases .ipv4 hlt with ⟨o, t, n, ho, hd⟩ | ⟨plen, t, ht, hle, hshort⟩ |
          ⟨plen, t, ht, hgt⟩
        · have hpos : 0 < o.length := List.length_pos_of_ne_nil ho.1.ne_nil
          rw [withdrawnLoop_entry hused ho hd]
          exact ih _ (by omega)
        · have hlen := length_of_drop_cons ht
          rw [withdrawnLoop, dif_pos hused, if_neg (by omega), octetAt_of_drop ht, Outcome.ok_bind,
            prefixBytes_of_le hle, Outcome.mapErr_ok, Outcome.ok_bind, if_pos (by omega)]
          exact Outcome.err_ne_panic _
        · rw [withdrawnLoop, dif_pos hused, if_neg (by omega), octetAt_of_drop ht, Outcome.ok_bind,
            prefixBytes, if_pos hgt]
          exact Outcome.err_ne_panic _
      · rw [withdrawnLoop, dif_pos hused, if_pos (by omega)]
        exact Outcome.ok_ne_panic _
    · rw [withdrawnLoop_done hused]
      exact Outcome.ok_ne_panic _

/-- A loop that returned has parsed what it walked over, up to its length or the end of the buffer
at least. -/
theorem parses_of_withdrawnLoop {src : Octets} {wdl : ℕ} : ∀ {wd : List Nlri} {k used i : ℕ}
    {r : List Nlri × ℕ}, wdl - used ≤ k → withdrawnLoop src wdl used i wd = .ok r →
      ∃ s ns, src.drop i = s ++ src.drop r.2 ∧ r = (wd ++ ns, i + s.length) ∧
        Parses PrefixEntry s ns ∧ (wdl ≤ used + s.length ∨ src.length ≤ i + s.length) := by
  intro wd k
  induction k generalizing wd with
  | zero =>
    intro used i r hk h
    rw [withdrawnLoop_done (by omega)] at h
    obtain rfl := Outcome.ok.inj h
    exact ⟨[], [], rfl, by simp, Parses.nil, Or.inl (by simp; omega)⟩
  | succ k ih =>
    intro used i r hk h
    by_cases hused : used < wdl
    · rcases withdrawnLoop_cases hused h with ⟨hge, rfl⟩ | ⟨o, t, n, ho, hd, h'⟩
      · exact ⟨[], [], rfl, by simp, Parses.nil, Or.inr (by simpa using hge)⟩
      · have hpos : 0 < o.length := List.length_pos_of_ne_nil ho.1.ne_nil
        obtain ⟨s, ns, hsplit, hr, hns, hend⟩ := ih (by omega) h'
        rw [drop_add_length hd] at hsplit
        refine ⟨o ++ s, n :: ns, ?_, ?_, Parses.cons ho hns, ?_⟩
        · rw [hd, hsplit, List.append_assoc]
        · rw [hr, List.append_assoc, List.length_append, Nat.add_assoc]
          rfl
        · rwa [List.length_append, ← Nat.add_assoc, ← Nat.add_assoc]
    · rw [withdrawnLoop_done hused] at h
      obtain rfl := Outcome.ok.inj h
      exact ⟨[], [], rfl, by simp, Parses.nil, Or.inl (by simpa using hused)⟩

/-- An UPDATE with a withdrawn section and nothing else. -/
def withdrawnOnly (w : Octets) : Octets := toBe 2 w.length ++ w ++ [0, 0]

/-- An UPDATE with announced routes and nothing else. -/
def announcedOnly (w : Octets) : Octets := [0, 0, 0, 0] ++ w

variable {w : Octets}

theorem layout_withdrawnOnly (h : w.length < 2 ^ 16) : Layout (withdrawnOnly w) w [] [] :=
  ⟨toBe 2 w.length, [0, 0], by rw [withdrawnOnly, List.append_assoc]; rfl, length_toBe _ _, rfl,
    ofBe_toBe_of_lt h, rfl⟩

theorem layout_announcedOnly (w : Octets) : Layout (announcedOnly w) [] [] w :=
  ⟨[0, 0], [0, 0], rfl, rfl, rfl, rfl, rfl⟩

/-- **A withdrawn section** is refused or parsed. An entry that takes its last octets from behind
the section leaves too few of them for the length of the attributes. -/
theorem tryFrom_withdrawnOnly (h : w.length < 2 ^ 16) :
    (∃ e, tryFrom (withdrawnOnly w) = .err e) ∨
      ∃ ns, Parses PrefixEntry w ns ∧ tryFrom (withdrawnOnly w) = .ok ⟨ns, [], []⟩ := by
  have hread : ∀ ns, Parses PrefixEntry w ns → tryFrom (withdrawnOnly w) = .ok ⟨ns, [], []⟩ :=
    fun ns hns ↦ tryFrom_of_parses (layout_withdrawnOnly h) hns Parses.nil Parses.nil
  have hlen : (withdrawnOnly w).length = w.length + 4 := by
    rw [withdrawnOnly, List.length_append, List.length_append, length_toBe]
    simp only [List.length_cons, List.length_nil]
    omega
  have hfirst : (slice (withdrawnOnly w) 0 2 : Outcome BgpError Octets)
      = .ok (toBe 2 w.length) := by
    have hcut := slice_zero_append (ε := BgpError) (toBe 2 w.length) (w ++ [0, 0])
    rwa [length_toBe, ← List.append_assoc] at hcut
  have hdrop : (withdrawnOnly w).drop 2 = w ++ [0, 0] := by
    rw [withdrawnOnly, List.append_assoc]
    exact List.drop_left' (length_toBe _ _)
  match hloop : withdrawnLoop (withdrawnOnly w) w.length 0 2 [] with
  | .err e =>
    refine Or.inl ⟨e, ?_⟩
    rw [tryFrom, if_neg (by omega), hfirst, Outcome.ok_bind, ofBe_toBe_of_lt h, hloop]
    rfl
  | .panic => exact absurd hloop (withdrawnLoop_ne_panic [] le_rfl)
  | .ok r =>
    by_cases hroom : r.2 + 2 > (withdrawnOnly w).length
    · refine Or.inl ⟨.message "Not enough data for path attributes length", ?_⟩
      rw [tryFrom, if_neg (by omega), hfirst, Outcome.ok_bind, ofBe_toBe_of_lt h, hloop,
        Outcome.ok_bind, if_pos hroom]
    · obtain ⟨s, ns, hsplit, rfl, hns, hend⟩ := parses_of_withdrawnLoop le_rfl hloop
      have hs : s.length = w.length := by
        dsimp only at hroom
        omega
      rw [hdrop] at hsplit
      obtain rfl := (List.append_inj hsplit hs.symm).1
      exact Or.inr ⟨ns, hns, hread ns hns⟩

theorem tryFrom_announcedOnly (w : Octets) : tryFrom (announcedOnly w)
    = (nlriLoop (announcedOnly w) 4 [] >>= fun routes ↦ .ok ⟨[], [], routes⟩) := by
  rw [tryFrom_of_layout (layout_announcedOnly w) (withdrawnLoop_done (by simp)),
    attributeLoop_done (by simp)]
  rfl

/-- **The withdrawn and the announced section are parsed alike** exactly when the prefixes do not
end in the middle of an entry. -/
theorem withdrawn_agree_iff (h : w.length ≤ 4000) :
    Outcome.Agree withdrawnRoutes nlri (tryFrom (withdrawnOnly w)) (tryFrom (announcedOnly w))
      ↔ ¬CutShort w := by
  have hdrop : (announcedOnly w).drop 4 = w := rfl
  have hcases := tryFrom_withdrawnOnly (w := w) (by omega)
  have hne : tryFrom (withdrawnOnly w) ≠ .panic := by
    rcases hcases with ⟨e, he⟩ | ⟨ns, -, hok⟩
    · rw [he]
      exact nofun
    · rw [hok]
      exact nofun
  rw [Outcome.agree_comm]
  refine (Outcome.agree_iff_ne_panic hne fun ns ↦ ?_).trans ?_
  · rw [tryFrom_announcedOnly, Outcome.exists_bind_ok_iff]
    constructor
    · rintro ⟨routes, hloop, rfl⟩
      obtain ⟨_, rfl, hns⟩ := parses_of_nlriLoop hloop
      exact ⟨⟨routes, [], []⟩,
        tryFrom_of_parses (layout_withdrawnOnly (by omega)) hns Parses.nil Parses.nil, rfl⟩
    · rintro ⟨u, hu, rfl⟩
      rcases hcases with ⟨e, he⟩ | ⟨ns, hns, hok⟩
      · exact nomatch he.symm.trans hu
      · obtain rfl := Outcome.ok.inj (hok.symm.trans hu)
        exact ⟨ns, nlriLoop_parses hns hdrop, rfl⟩
  · rw [tryFrom_announcedOnly, not_iff_not, Outcome.bind_ok_eq_panic,
      nlriLoop_eq_panic_iff, hdrop]

/-- `10.0.0.0/8`, withdrawn and announced. -/
theorem withdrawn_agree_iff_onePrefix :
    Outcome.Agree withdrawnRoutes nlri (tryFrom (withdrawnOnly [8, 10]))
      (tryFrom (announcedOnly [8, 10])) ↔ ¬CutShort [8, 10] :=
  withdrawn_agree_iff (by decide)

/-- A prefix of 24 bits with one octet: the withdrawn routes are refused, the announced ones
panic. -/
theorem not_forall_withdrawn_agree : ¬∀ w : Octets, w.length ≤ 4000 →
    Outcome.Agree withdrawnRoutes nlri (tryFrom (withdrawnOnly w)) (tryFrom (announcedOnly w)) := by
  intro h
  have hpanic : tryFrom (announcedOnly [24, 10]) = .panic := by decide +kernel
  have hagree := h [24, 10] (by decide)
  rw [hpanic, Outcome.agree_comm] at hagree
  exact hagree

end BgpUpdateMessage

end Ubgpd
