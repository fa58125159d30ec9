import Mathlib.Data.List.Basic
import Ubgpd.Lib.Outcome

/-!
# Framing of a stream

A decoder cuts frames off the front of a buffer, to which the stream is appended in chunks. After
each chunk it is called until it reports that the buffer holds no whole frame (`drain`); an error
ends the reading.

An `IncrementalDecoder` is one whose answers are *stable*: a frame that it finds, or an error, it
also finds in every longer buffer, and while it waits it leaves the buffer alone. Stability is what
makes the chunks irrelevant (`feed_eq_drain`): reading a stream in chunks gives what reading it
whole gives.
-/

namespace Ubgpd

/-- The answer to a buffer does not depend on what follows it, unless it is to wait. -/
inductive StableAnswer {ε α β : Type} (decode : List α → Outcome ε (Option β × List α))
    (buf : List α) : Prop
  | waits (h : decode buf = .ok (none, buf))
  | fails (e : ε) (h : ∀ ext, decode (buf ++ ext) = .err e)
  | cuts (b : β) (rest : List α) (hlt : rest.length < buf.length)
      (h : ∀ ext, decode (buf ++ ext) = .ok (some b, rest ++ ext))

/-- A decoder with stable answers. -/
structure IncrementalDecoder (ε α β : Type) where
  decode : List α → Outcome ε (Option β × List α)
  nil : decode [] = .ok (none, [])
  stable : ∀ buf, StableAnswer decode buf

namespace IncrementalDecoder

variable {ε α β : Type} (d : IncrementalDecoder ε α β) {buf rest : List α} {b : β} {e : ε}

/-! ## Answers -/

theorem ne_panic (buf : List α) : d.decode buf ≠ .panic := by
  rcases d.stable buf with h | ⟨e, h⟩ | ⟨b, rest, -, h⟩
  · rw [h]
    exact nofun
  · rw [← List.append_nil buf, h]
    exact nofun
  · rw [← List.append_nil buf, h]
    exact nofun

theorem none_rest (h : d.decode buf = .ok (none, rest)) : rest = buf := by
  rcases d.stable buf with h' | ⟨e, h'⟩ | ⟨b, rest', -, h'⟩
  · exact (Prod.mk.inj (Outcome.ok.inj (h.symm.trans h'))).2
  · rw [← List.append_nil buf, h'] at h
    exact absurd h nofun
  · rw [← List.append_nil buf, h'] at h
    exact absurd h nofun

/-- A frame takes something off the buffer, and is found whatever follows it. -/
theorem some_spec (h : d.decode buf = .ok (some b, rest)) : rest.length < buf.length ∧
    ∀ ext, d.decode (buf ++ ext) = .ok (some b, rest ++ ext) := by
  rcases d.stable buf with h' | ⟨e, h'⟩ | ⟨b', rest', hlt, h'⟩
  · rw [h'] at h
    exact absurd h nofun
  · rw [← List.append_nil buf, h'] at h
    exact absurd h nofun
  · rw [← List.append_nil buf, h', List.append_nil] at h
    obtain ⟨hb, rfl⟩ := Prod.mk.inj (Outcome.ok.inj h)
    obtain rfl : b' = b := Option.some.inj hb
    exact ⟨hlt, h'⟩

theorem err_append (h : d.decode buf = .err e) (ext : List α) :
    d.decode (buf ++ ext) = .err e := by
  rcases d.stable buf with h' | ⟨e', h'⟩ | ⟨b, rest, -, h'⟩
  · rw [h'] at h
    exact absurd h nofun
  · rw [← List.append_nil buf, h'] at h
    rw [h', h]
  · rw [← List.append_nil buf, h'] at h
    exact absurd h nofun

/-- Decode until the buffer holds no whole frame: the frames, and the buffer that remains or the
error. -/
def drain (buf : List α) : List β × Outcome ε (List α) :=
  match h : d.decode buf with
  | .ok (none, rest) => ([], .ok rest)
  | .ok (some b, rest) =>
    have := (d.some_spec h).1
    ((drain rest).1.cons b, (drain rest).2)
  | .err e => ([], .err e)
  | .panic => ([], .panic)
termination_by buf.length

/-- Read a stream in chunks: append each to what remains and drain. -/
def feed (buf : List α) : List (List α) → List β × Outcome ε (List α)
  | [] => ([], .ok buf)
  | chunk :: chunks =>
    match d.drain (buf ++ chunk) with
    | (bs, .ok rest) => (bs ++ (feed rest chunks).1, (feed rest chunks).2)
    | (bs, stop) => (bs, stop)

variable {d} {bs : List β}

/-! ## Draining -/

theorem drain_of_none (h : d.decode buf = .ok (none, rest)) : d.drain buf = ([], .ok rest) := by
  rw [drain]
  split <;> simp_all

theorem drain_of_some (h : d.decode buf = .ok (some b, rest)) :
    d.drain buf = (b :: (d.drain rest).1, (d.drain rest).2) := by
  rw [drain]
  split <;> simp_all

theorem drain_of_err (h : d.decode buf = .err e) : d.drain buf = ([], .err e) := by
  rw [drain]
  split <;> simp_all

theorem decode_of_drain (h : d.drain buf = (bs, .ok rest)) : d.decode rest = .ok (none, rest) := by
  induction buf using drain.induct d generalizing bs with
  | case1 buf rest' hnone =>
    rw [drain_of_none hnone] at h
    obtain rfl : rest' = rest := Outcome.ok.inj (Prod.mk.inj h).2
    obtain rfl := d.none_rest hnone
    exact hnone
  | case2 buf b rest' hsome _ ih =>
    rw [drain_of_some hsome] at h
    exact ih (Prod.ext rfl (Prod.mk.inj h).2)
  | case3 buf e herr =>
    rw [drain_of_err herr] at h
    exact absurd (Prod.mk.inj h).2 nofun
  | case4 buf hpanic => exact absurd hpanic (d.ne_panic buf)

/-- **Draining in two goes**, the first of which ended without an error. -/
theorem drain_append_of_ok (ext : List α) (h : d.drain buf = (bs, .ok rest)) :
    d.drain (buf ++ ext) = (bs ++ (d.drain (rest ++ ext)).1, (d.drain (rest ++ ext)).2) := by
  induction buf using drain.induct d generalizing bs with
  | case1 buf rest' hnone =>
    rw [drain_of_none hnone] at h
    obtain ⟨rfl, hrest⟩ := Prod.mk.inj h
    obtain rfl : rest' = rest := Outcome.ok.inj hrest
    obtain rfl := d.none_rest hnone
    rfl
  | case2 buf b rest' hsome _ ih =>
    rw [drain_of_some hsome] at h
    obtain ⟨rfl, hrest⟩ := Prod.mk.inj h
    rw [drain_of_some ((d.some_spec hsome).2 ext), ih (Prod.ext rfl hrest)]
    rfl
  | case3 buf e herr =>
    rw [drain_of_err herr] at h
    exact absurd (Prod.mk.inj h).2 nofun
  | case4 buf hpanic => exact absurd hpanic (d.ne_panic buf)

/-- An error that was met is met in every longer buffer, after the same frames. -/
theorem drain_append_of_err (ext : List α) (h : d.drain buf = (bs, .err e)) :
    d.drain (buf ++ ext) = (bs, .err e) := by
  induction buf using drain.induct d generalizing bs with
  | case1 buf rest' hnone =>
    rw [drain_of_none hnone] at h
    exact absurd (Prod.mk.inj h).2 nofun
  | case2 buf b rest' hsome _ ih =>
    rw [drain_of_some hsome] at h
    obtain ⟨rfl, hstop⟩ := Prod.mk.inj h
    rw [drain_of_some ((d.some_spec hsome).2 ext), ih (Prod.ext rfl hstop)]
  | case3 buf e' herr =>
    rw [drain_of_err herr] at h
    rw [drain_of_err (d.err_append herr ext), h]
  | case4 buf hpanic => exact absurd hpanic (d.ne_panic buf)

theorem drain_ne_panic (buf : List α) : (d.drain buf).2 ≠ .panic := by
  induction buf using drain.induct d with
  | case1 buf rest' hnone =>
    rw [drain_of_none hnone]
    exact nofun
  | case2 buf b rest' hsome _ ih => rwa [drain_of_some hsome]
  | case3 buf e herr =>
    rw [drain_of_err herr]
    exact nofun
  | case4 buf hpanic => exact absurd hpanic (d.ne_panic buf)

/-! ## Reading in chunks -/

/-- **Chunks do not matter.** Reading in chunks is draining the whole stream. -/
theorem feed_eq_drain (chunks : List (List α)) :
    ∀ {buf : List α}, d.decode buf = .ok (none, buf) →
      d.feed buf chunks = d.drain (buf ++ chunks.flatten) := by
  induction chunks with
  | nil =>
    intro buf hbuf
    rw [List.flatten_nil, List.append_nil, drain_of_none hbuf]
    rfl
  | cons chunk chunks ih =>
    intro buf hbuf
    rw [List.flatten_cons, ← List.append_assoc, feed]
    match h : d.drain (buf ++ chunk) with
    | (bs, .ok rest) =>
      rw [drain_append_of_ok _ h, ← ih (decode_of_drain h)]
    | (bs, .err e) => exact (drain_append_of_err _ h).symm
    | (bs, .panic) => exact absurd (congrArg Prod.snd h) (drain_ne_panic _)

theorem feed_eq_of_flatten_eq {chunks chunks' : List (List α)}
    (h : chunks.flatten = chunks'.flatten) : d.feed [] chunks = d.feed [] chunks' := by
  rw [feed_eq_drain _ d.nil, feed_eq_drain _ d.nil, h]

/-- A stream that is a sequence of frames is read as these, to its end. -/
theorem drain_flatMap {octets : β → List α} {bs : List β}
    (h : ∀ b ∈ bs, ∀ rest, d.decode (octets b ++ rest) = .ok (some b, rest)) :
    d.drain (bs.flatMap octets) = (bs, .ok []) := by
  induction bs with
  | nil => exact drain_of_none d.nil
  | cons b bs ih =>
    rw [List.flatMap_cons, drain_of_some (h b List.mem_cons_self _),
      ih fun c hc ↦ h c (List.mem_cons_of_mem b hc)]

end IncrementalDecoder

end Ubgpd
