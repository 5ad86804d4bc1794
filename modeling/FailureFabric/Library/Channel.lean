import FailureFabric.Library.Decoder

namespace FailureFabric.Library

/-!
# Channels that deliver in chunks

A channel carries symbols in order.  A call on one of its ends moves some of them: at least one
where there is one to move, at most as many as it is asked for, and how many in between is the
channel's choice.

* `Chunks` — the choices: a positive size for every call;
* `Inlet.recv`, `Inlet.readAll` — one receiving call, and the loop that waits for `n` symbols;
  `Inlet.reads_readAll` and `Inlet.readAll_of_lt` say that the loop does not see the chunks;
* `Outlet.send`, `Outlet.writeAll` — one sending call, and the loop that sends everything;
  `Outlet.writeAll_eq`;
* `wholeBefore` — the messages of a stream that lie wholly before a cut, and
  `readMany_wholeBefore` — they are what a reader of one message gets out of the cut stream.
-/

/-- How much each call moves at most. -/
structure Chunks where
  size : Nat → Nat
  size_pos : ∀ i, 0 < size i

variable {σ β α : Type}

/-! ### The receiving end -/

/-- A receiving end: what is still to come, the sizes, and the calls so far. -/
structure Inlet (β : Type) where
  pending : List β
  chunks : Chunks
  calls : Nat := 0

namespace Inlet

instance : Source (Inlet β) β where
  good _ := True
  unread s := s.pending

/-- One call for at most `n` symbols.  At the end of the stream it answers none. -/
def recv (n : Nat) (s : Inlet β) : List β × Inlet β :=
  let k := min n (s.chunks.size s.calls)
  (s.pending.take k, { s with pending := s.pending.drop k, calls := s.calls + 1 })

/-- Calls for at most `cap` symbols each until there are `n`, or until a call answers none. -/
def readAll (cap n : Nat) (s : Inlet β) : Option (List β × Inlet β) :=
  if n = 0 then some ([], s)
  else
    match s.recv (min n cap) with
    | (got, s') =>
      if got.length = 0 then none
      else (readAll cap (n - got.length) s').map (fun p => (got ++ p.1, p.2))
termination_by n

/-- A call takes the beginning of what is pending, at most as much as it asked for, and some of
    it where there is some. -/
theorem recv_spec (n : Nat) (s : Inlet β) : ∃ k, k ≤ n ∧ k ≤ s.pending.length ∧
    (0 < n → 0 < s.pending.length → 0 < k) ∧
    (s.recv n).1 = s.pending.take k ∧ (s.recv n).2.pending = s.pending.drop k := by
  have hpos := s.chunks.size_pos s.calls
  refine ⟨min (min n (s.chunks.size s.calls)) s.pending.length, by omega, by omega, by omega,
    ?_, ?_⟩
  · exact List.take_eq_take_min
  · exact List.drop_eq_drop_min

/-- **The loop does not see the chunks.** It answers the next `n` symbols where there are as
    many, and nothing where there are not. -/
theorem readAll_spec {cap : Nat} (hcap : 0 < cap) (n : Nat) (s : Inlet β) :
    (n ≤ s.pending.length → ∃ s', readAll cap n s = some (s.pending.take n, s') ∧
      s'.pending = s.pending.drop n) ∧
    (s.pending.length < n → readAll cap n s = none) := by
  induction n using Nat.strongRecOn generalizing s with
  | ind n ih =>
    rw [readAll]
    by_cases hn : n = 0
    · subst hn
      exact ⟨fun _ => ⟨s, rfl, rfl⟩, fun h => absurd h (Nat.not_lt_zero _)⟩
    · rw [if_neg hn]
      obtain ⟨k, hkn, hkp, hkpos, hgot, hrest⟩ := recv_spec (min n cap) s
      have hlen : (s.recv (min n cap)).1.length = k := by
        rw [hgot, List.length_take, Nat.min_eq_left hkp]
      dsimp only
      rw [hlen]
      by_cases hk : k = 0
      · -- the stream has ended before the `n` symbols
        have hended : s.pending.length = 0 := by omega
        rw [if_pos hk]
        exact ⟨fun h => absurd h (by omega), fun _ => rfl⟩
      · rw [if_neg hk]
        obtain ⟨hall, hshort⟩ := ih (n - k) (by omega) (s.recv (min n cap)).2
        rw [hrest, List.length_drop] at hall hshort
        refine ⟨fun hle => ?_, fun hlt => ?_⟩
        · obtain ⟨s', hs', hpending⟩ := hall (by omega)
          have hsum : n = k + (n - k) := by omega
          refine ⟨s', ?_, ?_⟩
          · rw [hs', Option.map_some, hgot, ← List.take_add, ← hsum]
          · rw [hpending, List.drop_drop, ← hsum]
        · rw [hshort (by omega), Option.map_none]

theorem readAll_of_lt {cap : Nat} (hcap : 0 < cap) {n : Nat} {s : Inlet β}
    (hlt : s.pending.length < n) : readAll cap n s = none :=
  (readAll_spec hcap n s).2 hlt

theorem reads_readAll {cap : Nat} (hcap : 0 < cap) (bs : List β) :
    Reads (readAll cap bs.length : Decoder (Inlet β) (List β)) bs bs := by
  intro s t _ hunread
  have hpending : s.pending = bs ++ t := hunread
  have hle : bs.length ≤ s.pending.length := by
    rw [hpending, List.length_append]
    omega
  obtain ⟨s', hs', hrest⟩ := (readAll_spec hcap bs.length s).1 hle
  rw [hpending, List.take_left] at hs'
  rw [hpending, List.drop_left] at hrest
  exact ⟨s', hs', trivial, hrest⟩

end Inlet

/-! ### The sending end -/

/-- A sending end: what has been taken over so far, the sizes, and the calls so far. -/
structure Outlet (β : Type) where
  sent : List β := []
  chunks : Chunks
  calls : Nat := 0

namespace Outlet

/-- One call with the symbols `bs`: how many of them it took over. -/
def send (bs : List β) (s : Outlet β) : Nat × Outlet β :=
  let k := min bs.length (s.chunks.size s.calls)
  (k, { s with sent := s.sent ++ bs.take k, calls := s.calls + 1 })

/-- Calls with at most `cap` symbols each until all are taken over, or until a call takes none. -/
def writeAll (cap : Nat) (bs : List β) (s : Outlet β) : Option (Outlet β) :=
  if bs.length = 0 then some s
  else
    match s.send (bs.take cap) with
    | (k, s') => if k = 0 then none else writeAll cap (bs.drop k) s'
termination_by bs.length
decreasing_by
  rw [List.length_drop]
  omega

/-- **The loop sends everything**, whatever the sizes. -/
theorem writeAll_spec {cap : Nat} (hcap : 0 < cap) (bs : List β) (s : Outlet β) :
    ∃ s', writeAll cap bs s = some s' ∧ s'.sent = s.sent ++ bs := by
  induction hlen : bs.length using Nat.strongRecOn generalizing bs s with
  | ind n ih =>
    rw [writeAll]
    by_cases hn : bs.length = 0
    · rw [if_pos hn, List.eq_nil_of_length_eq_zero hn]
      exact ⟨s, rfl, (List.append_nil _).symm⟩
    · have hpos := s.chunks.size_pos s.calls
      rw [if_neg hn]
      dsimp only [send]
      rw [List.length_take]
      set k := min (min cap bs.length) (s.chunks.size s.calls) with hk
      have hkpos : k ≠ 0 := by omega
      have hdrop : (bs.drop k).length < n := by
        rw [List.length_drop]
        omega
      rw [if_neg hkpos]
      obtain ⟨s', hs', hsent⟩ := ih _ hdrop (bs.drop k)
        { s with sent := s.sent ++ (bs.take cap).take k, calls := s.calls + 1 } rfl
      have hpiece : (bs.take cap).take k = bs.take k := by
        rw [List.take_take, Nat.min_eq_left (by omega)]
      refine ⟨s', hs', ?_⟩
      rw [hsent, hpiece, List.append_assoc, List.take_append_drop]

end Outlet

/-! ### Cut streams -/

section Cuts

variable [Source σ β] {m : Decoder σ α} {encode : α → List β} {bs cs : List β} {a : α}

/-- On a source in order with exactly `bs` left, `m` rejects. -/
def Stops (m : Decoder σ α) (bs : List β) : Prop :=
  ∀ s, Source.good s → Source.unread s = bs → m s = none

theorem Stops.bind {γ : Type} {f : α → Decoder σ γ} (hm : Stops m bs) : Stops (m >>= f) bs := by
  intro s hgood hunread
  show (m s).bind (fun p => f p.1 p.2) = none
  rw [hm s hgood hunread]
  rfl

/-- After a decoder that reads `bs`, the second one rejects. -/
theorem Reads.bind_stops {γ : Type} {f : α → Decoder σ γ} (hm : Reads m bs a)
    (hf : Stops (f a) cs) : Stops (m >>= f) (bs ++ cs) := by
  intro s hgood hunread
  obtain ⟨s₁, h₁, hgood₁, hunread₁⟩ := hm s cs hgood hunread
  show (m s).bind (fun p => f p.1 p.2) = none
  rw [h₁]
  exact hf s₁ hgood₁ hunread₁

theorem Reads.nil_bind_stops {γ : Type} {f : α → Decoder σ γ} (hm : Reads m [] a)
    (hf : Stops (f a) cs) : Stops (m >>= f) cs :=
  hm.bind_stops hf

/-- A result that is there already reads nothing. -/
theorem Reads.lift {o : Option α} (ho : o = some a) : Reads (StateT.lift o : Decoder σ α) [] a := by
  subst ho
  exact Reads.pure a

/-- The messages that lie wholly among the first `k` symbols of a stream. -/
def wholeBefore (encode : α → List β) : List α → Nat → List α
  | [], _ => []
  | a :: as, k =>
    if (encode a).length ≤ k then a :: wholeBefore encode as (k - (encode a).length) else []

/-- **Cut law.** A reader of one message that rejects what is left of a cut one gets the messages
    that lie wholly before the cut, and then it rejects. -/
theorem readMany_wholeBefore {as : List α} (hreads : ∀ a ∈ as, Reads m (encode a) a)
    (hstops : ∀ a ∈ as, ∀ k < (encode a).length, Stops m ((encode a).take k))
    (hend : Stops m []) (k : Nat) {s : σ} (hgood : Source.good s)
    (hunread : Source.unread s = (as.flatMap encode).take k) :
    ∃ s', readMany m (wholeBefore encode as k).length s = some (wholeBefore encode as k, s') ∧
      m s' = none := by
  induction as generalizing k s with
  | nil => exact ⟨s, rfl, hend s hgood (by rw [hunread, List.flatMap_nil, List.take_nil])⟩
  | cons a as ih =>
    rw [List.flatMap_cons, List.take_append] at hunread
    by_cases hk : (encode a).length ≤ k
    · -- the first message is whole: read it and go on behind it
      rw [List.take_of_length_le hk] at hunread
      obtain ⟨s₁, h₁, hgood₁, hunread₁⟩ := hreads a List.mem_cons_self s _ hgood hunread
      obtain ⟨s', hs', hnone⟩ := ih (fun b hb => hreads b (List.mem_cons_of_mem a hb))
        (fun b hb => hstops b (List.mem_cons_of_mem a hb)) (k - (encode a).length) hgood₁ hunread₁
      refine ⟨s', ?_, hnone⟩
      rw [wholeBefore, if_pos hk, List.length_cons]
      show (m s).bind _ = _
      rw [h₁]
      show (readMany m _ s₁).bind _ = _
      rw [hs']
      rfl
    · have hcut : Source.unread s = (encode a).take k := by
        rw [hunread, Nat.sub_eq_zero_of_le (by omega), List.take_zero, List.append_nil]
      rw [wholeBefore, if_neg hk]
      exact ⟨s, rfl, hstops a List.mem_cons_self k (by omega) s hgood hcut⟩

end Cuts

end FailureFabric.Library
