import CollaboraOnline.Wsd.ProxyProtocol

/-!
# Messages of the proxy protocol in order

The messages that have arrived are counted over all requests; the handler has been called with the first ones, and the
others are queued (`Settled`).  So a message is handled as soon as those before it have arrived (`proxy_in_order`).
-/

namespace CollaboraOnline

namespace ProxyProtocol

open Http

/-! ### The bodies -/

section Bodies

variable (msgs : List Message)

/-- The frame of the message with index `i`; the first serial is 1. -/
def frameAt (i : Nat) : List UInt8 := (msgs[i]?).elim [] (Message.frame (1 + i))

def dataAt (i : Nat) : List UInt8 := (msgs[i]?).elim [] Message.data

/-- The body of a request with these messages. -/
def body (fs : List Nat) : List UInt8 := fs.flatMap (frameAt msgs) ++ [DOT]

/-- The messages that are complete in the first `k` bytes of a body. -/
def completed : List Nat → Nat → List Nat
  | [], _ => []
  | i :: fs, k => if (frameAt msgs i).length ≤ k then i :: completed fs (k - (frameAt msgs i).length) else []

/-- A message that can be sent. -/
def Sendable (i : Nat) : Prop := ∃ m, msgs[i]? = some m ∧ Fits m (1 + i)

variable {msgs} {fs : List Nat} {i k k' n : Nat} {p : List UInt8} {h : Handler}

theorem Sendable.frame_eq (hi : Sendable msgs i) : ∃ m, frameAt msgs i = m.frame (1 + i) ∧ dataAt msgs i = m.data ∧
    Fits m (1 + i) ∧ 0 < (frameAt msgs i).length := by
  obtain ⟨m, hm, hfits⟩ := hi
  have hframe : frameAt msgs i = m.frame (1 + i) := by rw [frameAt, hm, Option.elim_some]
  refine ⟨m, hframe, by rw [dataAt, hm, Option.elim_some], hfits, ?_⟩
  rw [hframe, length_frame]
  omega

theorem completed_front (msgs : List Message) (fs : List Nat) (k : Nat) : completed msgs fs k <+: fs := by
  induction fs generalizing k with
  | nil => exact List.prefix_refl _
  | cons i fs ih =>
    rw [completed]
    split
    · exact (List.prefix_cons_inj i).2 (ih _)
    · exact List.nil_prefix

/-- The bytes of the messages that are complete. -/
def consumed (msgs : List Message) (fs : List Nat) (k : Nat) : Nat :=
  ((completed msgs fs k).flatMap (frameAt msgs)).length

theorem consumed_le (msgs : List Message) (fs : List Nat) (k : Nat) : consumed msgs fs k ≤ k := by
  unfold consumed
  induction fs generalizing k with
  | nil => exact Nat.zero_le _
  | cons i fs ih =>
    rw [completed]
    split
    · have := ih (k - (frameAt msgs i).length)
      rw [List.flatMap_cons, List.length_append]
      omega
    · exact Nat.zero_le _

/-- What becomes complete with more bytes. -/
theorem completed_add (msgs : List Message) (hk : k ≤ k') (fs : List Nat) :
    completed msgs fs k' = completed msgs fs k ++
    completed msgs (fs.drop (completed msgs fs k).length) (k' - consumed msgs fs k) := by
  unfold consumed
  induction fs generalizing k k' with
  | nil => rfl
  | cons i fs ih =>
    by_cases hi : (frameAt msgs i).length ≤ k
    · have hrest := ih (Nat.sub_le_sub_right hk (frameAt msgs i).length)
      rw [completed, if_pos (by omega), completed, if_pos hi, hrest, List.flatMap_cons, List.length_append,
        List.length_cons, List.drop_succ_cons, List.cons_append, Nat.sub_sub]
    · rw [completed.eq_def msgs (i :: fs) k]
      dsimp only
      rw [if_neg hi]
      rfl

theorem completed_body (fs : List Nat) : completed msgs fs (body msgs fs).length = fs := by
  have hmore : ∀ k, completed msgs fs ((fs.flatMap (frameAt msgs)).length + k) = fs := by
    intro k
    induction fs with
    | nil => rfl
    | cons i fs ih =>
      rw [completed, List.flatMap_cons, List.length_append, if_pos (by omega), Nat.add_assoc,
        Nat.add_sub_cancel_left, ih]
  have hlen : (body msgs fs).length = (fs.flatMap (frameAt msgs)).length + 1 := by rw [body, List.length_append]; rfl
  rw [hlen]
  exact hmore 1

/-- A buffer is read up to the first message that is not complete. -/
theorem parseEmitIncoming_body (hfs : ∀ i ∈ fs, Sendable msgs i) (hp : p <+: body msgs fs) (hn : p.length ≤ n) :
    (parseEmitIncoming n h p).2 =
      ((completed msgs fs p.length).foldl (fun h i => h.add (1 + i) (dataAt msgs i)) h,
      p.drop (consumed msgs fs p.length)) := by
  unfold consumed
  induction fs generalizing p n h with
  | nil =>
    have hdone : (parseEmitIncoming n h p).2 = (h, p) := by
      cases n with
      | zero => rfl
      | succ n =>
        rcases List.prefix_cons_iff.1 hp with rfl | ⟨t, rfl, ht⟩
        · rfl
        · obtain rfl := List.prefix_nil.1 ht
          rfl
    rw [hdone]
    rfl
  | cons i fs ih =>
    obtain ⟨m, hframe, hdata, hfits, hpos⟩ := (hfs i (List.mem_cons_self ..)).frame_eq
    have hp' : p <+: frameAt msgs i ++ body msgs fs := by
      rw [body, List.flatMap_cons, List.append_assoc] at hp
      exact hp
    rcases prefix_append_cases hp' with ⟨hlen, hpart⟩ | ⟨q, rfl, hq⟩
    · have hdone : (parseEmitIncoming n h p).2 = (h, p) := by
        cases n with
        | zero => rfl
        | succ n =>
          rw [parseEmitIncoming]
          by_cases hnil : p = []
          · rw [if_pos hnil]
          · rw [hframe] at hlen hpart
            rw [if_neg hnil, hasCompleteMessage_prefix hfits hpart hlen hnil, if_pos (by decide)]
      rw [hdone, completed, if_neg (by omega)]
      rfl
    · rw [List.length_append] at hn
      obtain ⟨n, rfl⟩ : ∃ n', n = n' + 1 := ⟨n - 1, by omega⟩
      have hrest := ih (h := h.add (1 + i) (dataAt msgs i)) (fun j hj => hfs j (List.mem_cons_of_mem _ hj)) hq
        (show q.length ≤ n by omega)
      have hstep : parseEmitIncoming (n + 1) h (frameAt msgs i ++ q) =
          parseEmitIncoming n (h.add (1 + i) (dataAt msgs i)) q := by
        rw [hframe, hdata]
        exact parseEmitIncoming_frame hfits q
      have hcompleted : completed msgs (i :: fs) (frameAt msgs i ++ q).length = i :: completed msgs fs q.length := by
        rw [completed, List.length_append, if_pos (Nat.le_add_right _ _), Nat.add_sub_cancel_left]
      rw [hstep, hrest, hcompleted, List.foldl_cons, List.flatMap_cons, List.length_append, ← List.drop_drop,
        List.drop_left]

end Bodies

/-! ### The order -/

section Order

variable {msgs : List Message} {h : Handler} {A : Nat → Prop} {i n : Nat}

/-- The messages `A` have arrived: the handler was called with the first ones, and the others are queued. -/
structure Queued (msgs : List Message) (A : Nat → Prop) (h : Handler) : Prop where
  valid : ∀ i, A i → i < msgs.length
  inSerial : h.inSerial = 1 + h.handled.length
  handled : h.handled = (msgs.take h.handled.length).map Message.data
  before : ∀ i < h.handled.length, A i
  queued : ∀ i, h.handled.length ≤ i → A i → h.serialQueue.find (1 + i) = some (1 + i, dataAt msgs i)
  absent : ∀ i, h.handled.length ≤ i → ¬ A i → h.serialQueue.find (1 + i) = none

/-- The next message has not arrived. -/
structure Settled (msgs : List Message) (A : Nat → Prop) (h : Handler) : Prop extends Queued msgs A h where
  missing : ¬ A h.handled.length

theorem settled_new : Settled msgs (fun _ => False) {} where
  valid := fun _ h => h.elim
  inSerial := rfl
  handled := rfl
  before := fun i h => absurd h (Nat.not_lt_zero i)
  queued := fun _ _ h => h.elim
  absent := fun _ _ _ => rfl
  missing := fun h => h

theorem length_erase_lt {q : Table (Prod.fst : Nat × List UInt8 → Nat)} {k : Nat} {e : Nat × List UInt8}
    (hfind : q.find k = some e) : (q.erase k).entries.length < q.entries.length := by
  unfold Table.erase Table.filter
  refine List.length_filter_lt_length_iff_exists.2 ⟨e, Table.mem_of_find hfind, ?_⟩
  simp [Table.key_of_find hfind]

theorem Queued.process (hq : Queued msgs A h) (hn : h.serialQueue.entries.length ≤ n) :
    Settled msgs A (h.processBufferedMessages n) := by
  induction n generalizing h with
  | zero =>
    refine ⟨hq, fun hA => ?_⟩
    have hfind := hq.queued _ (Nat.le_refl _) hA
    have hmem := List.length_pos_of_mem (Table.mem_of_find hfind)
    omega
  | succ n ih =>
    rw [Handler.processBufferedMessages]
    cases hfind : h.serialQueue.find h.inSerial with
    | none =>
      refine ⟨hq, fun hA => ?_⟩
      have hqueued := hq.queued _ (Nat.le_refl _) hA
      rw [← hq.inSerial, hfind] at hqueued
      cases hqueued
    | some message =>
      have hA : A h.handled.length := by
        by_contra hA
        have habsent := hq.absent _ (Nat.le_refl _) hA
        rw [← hq.inSerial, hfind] at habsent
        cases habsent
      have hmessage : message = (1 + h.handled.length, dataAt msgs h.handled.length) := by
        have hqueued := hq.queued _ (Nat.le_refl _) hA
        have hfind' : h.serialQueue.find (1 + h.handled.length) = some message := by
          rw [← hq.inSerial]
          exact hfind
        exact Option.some.inj (hfind'.symm.trans hqueued)
      have hvalid := hq.valid _ hA
      have hdata : dataAt msgs h.handled.length = (msgs[h.handled.length]).data := by
        rw [dataAt, List.getElem?_eq_getElem hvalid, Option.elim_some]
      dsimp only
      refine ih ⟨hq.valid, ?_, ?_, ?_, ?_, ?_⟩ ?_
      · dsimp only
        rw [List.length_append, List.length_singleton, hq.inSerial]
        omega
      · dsimp only
        rw [List.length_append, List.length_singleton, List.take_add_one, List.getElem?_eq_getElem hvalid,
          Option.toList_some, List.map_append, ← hq.handled, hmessage, hdata]
        rfl
      · intro i hi
        dsimp only at hi
        rw [List.length_append, List.length_singleton] at hi
        rcases Nat.lt_or_ge i h.handled.length with hlt | hge
        · exact hq.before i hlt
        · obtain rfl : i = h.handled.length := by omega
          exact hA
      · intro i hi hA
        dsimp only at hi ⊢
        rw [List.length_append, List.length_singleton] at hi
        rw [Table.find_erase_of_ne (by rw [hq.inSerial]; omega)]
        exact hq.queued i (by omega) hA
      · intro i hi hA
        dsimp only at hi ⊢
        rw [List.length_append, List.length_singleton] at hi
        rw [Table.find_erase_of_ne (by rw [hq.inSerial]; omega)]
        exact hq.absent i (by omega) hA
      · have := length_erase_lt hfind
        dsimp only
        omega

/-- A message that arrives for the first time. -/
theorem Settled.add (hs : Settled msgs A h) (hi : i < msgs.length) (hnew : ¬ A i) :
    Settled msgs (fun j => A j ∨ j = i) (h.add (1 + i) (dataAt msgs i)) := by
  unfold Handler.add
  dsimp only
  have hlater : h.handled.length ≤ i := by
    by_contra hlt
    exact hnew (hs.before i (by omega))
  refine Queued.process (h := { h with serialQueue := h.serialQueue.put (1 + i, dataAt msgs i) })
    ⟨?_, hs.inSerial, hs.handled, fun j hj => .inl (hs.before j hj), ?_, ?_⟩ (Nat.le_refl _)
  · rintro j (hj | rfl)
    · exact hs.valid j hj
    · exact hi
  · intro j hj hA
    dsimp only
    rw [Table.find_put]
    by_cases hji : j = i
    · subst hji
      exact if_pos rfl
    · rw [if_neg (by omega)]
      exact hs.queued j hj (hA.resolve_right hji)
  · intro j hj hA
    rw [not_or] at hA
    dsimp only
    rw [Table.find_put, if_neg (by have := hA.2; omega)]
    exact hs.absent j hj hA.1

theorem Settled.addAll {new : List Nat} (hs : Settled msgs A h) (hvalid : ∀ i ∈ new, i < msgs.length)
    (hnew : ∀ i ∈ new, ¬ A i) (hnodup : new.Nodup) : Settled msgs (fun j => A j ∨ j ∈ new)
      (new.foldl (fun h i => h.add (1 + i) (dataAt msgs i)) h) := by
  induction new generalizing A h with
  | nil =>
    have hA : (fun j => A j ∨ j ∈ ([] : List Nat)) = A := by
      funext j
      simp
    rw [hA]
    exact hs
  | cons i new ih =>
    rw [List.nodup_cons] at hnodup
    have hfirst := hs.add (hvalid i (List.mem_cons_self ..)) (hnew i (List.mem_cons_self ..))
    have hrest := ih hfirst (fun j hj => hvalid j (List.mem_cons_of_mem _ hj)) ?_ hnodup.2
    · have hA : (fun j => A j ∨ j ∈ i :: new) = fun j => (A j ∨ j = i) ∨ j ∈ new := by
        funext j
        rw [List.mem_cons, or_assoc]
      rw [hA]
      exact hrest
    · rintro j hj (hA | rfl)
      · exact hnew j (List.mem_cons_of_mem _ hj) hA
      · exact hnodup.1 hj

end Order

/-! ### All requests -/

section Requests

variable {msgs : List Message} {requests : List (List Nat)} {pieces : List (Nat × List UInt8)} {p : Proxy}

/-- The bytes of the body of a request that have arrived. -/
def received (j : Nat) (pieces : List (Nat × List UInt8)) : List UInt8 :=
  (pieces.filter fun piece => piece.1 = j).flatMap Prod.snd

/-- The messages of a request. -/
def messagesOf (requests : List (List Nat)) (j : Nat) : List Nat := (requests[j]?).getD []

/-- The messages of a request that have arrived. -/
def arrivedOf (msgs : List Message) (requests : List (List Nat)) (pieces : List (Nat × List UInt8)) (j : Nat) :
    List Nat :=
  completed msgs (messagesOf requests j) (received j pieces).length

/-- The handler has the messages that have arrived, and the buffers have what is left. -/
structure Delivered (msgs : List Message) (requests : List (List Nat)) (pieces : List (Nat × List UInt8))
    (p : Proxy) : Prop where
  handler : Settled msgs (fun i => ∃ j, i ∈ arrivedOf msgs requests pieces j) p.handler
  inBuffer : ∀ j, p.inBuffer j =
    (received j pieces).drop (consumed msgs (messagesOf requests j) (received j pieces).length)

/-- Every message is in one request, at one place. -/
structure Spread (requests : List (List Nat)) : Prop where
  nodup : ∀ j, (messagesOf requests j).Nodup
  disjoint : ∀ i j j', i ∈ messagesOf requests j → i ∈ messagesOf requests j' → j = j'

theorem spread_of_nodup (h : requests.flatten.Nodup) : Spread requests := by
  rw [List.nodup_flatten] at h
  have hget : ∀ {j i}, i ∈ messagesOf requests j → ∃ hj : j < requests.length, i ∈ requests[j] := by
    intro j i hi
    unfold messagesOf at hi
    rcases Nat.lt_or_ge j requests.length with hj | hj
    · rw [List.getElem?_eq_getElem hj, Option.getD_some] at hi
      exact ⟨hj, hi⟩
    · rw [List.getElem?_eq_none hj, Option.getD_none] at hi
      exact absurd hi List.not_mem_nil
  constructor
  · intro j
    unfold messagesOf
    rcases Nat.lt_or_ge j requests.length with hj | hj
    · rw [List.getElem?_eq_getElem hj, Option.getD_some]
      exact h.1 _ (List.getElem_mem hj)
    · rw [List.getElem?_eq_none hj, Option.getD_none]
      exact List.nodup_nil
  · intro i j j' hi hi'
    obtain ⟨hj, hi⟩ := hget hi
    obtain ⟨hj', hi'⟩ := hget hi'
    have hpair := List.pairwise_iff_getElem.1 h.2
    rcases Nat.lt_trichotomy j j' with hlt | heq | hlt
    · exact absurd hi' (hpair j j' hj hj' hlt hi)
    · exact heq
    · exact absurd hi (hpair j' j hj' hj hlt hi')

theorem received_concat (j : Nat) (piece : Nat × List UInt8) :
    received j (pieces ++ [piece]) = received j pieces ++ if piece.1 = j then piece.2 else [] := by
  unfold received
  rw [List.filter_append, List.flatMap_append]
  by_cases h : piece.1 = j
  · rw [if_pos h, List.filter_cons_of_pos (by simpa using h)]
    simp
  · rw [if_neg h, List.filter_cons_of_neg (by simpa using h)]
    simp

/-- One arrival. -/
theorem Delivered.arrive (hd : Delivered msgs requests pieces p) (hspread : Spread requests)
    (hsend : ∀ j, ∀ i ∈ messagesOf requests j, Sendable msgs i) (j : Nat) (piece : List UInt8)
    (hpiece : received j (pieces ++ [(j, piece)]) <+: body msgs (messagesOf requests j)) :
    Delivered msgs requests (pieces ++ [(j, piece)]) (p.handleIncomingMessage j piece) := by
  have hreceived : received j (pieces ++ [(j, piece)]) = received j pieces ++ piece := by
    rw [received_concat, if_pos rfl]
  have hothers : ∀ j', j' ≠ j → received j' (pieces ++ [(j, piece)]) = received j' pieces := by
    intro j' hne
    rw [received_concat, if_neg (Ne.symm hne), List.append_nil]
  rw [hreceived] at hpiece
  have hle := consumed_le msgs (messagesOf requests j) (received j pieces).length
  have hadd := completed_add msgs (Nat.le_add_right (received j pieces).length piece.length) (messagesOf requests j)
  have hsplit := List.prefix_iff_eq_append.1 (completed_front msgs (messagesOf requests j) (received j pieces).length)
  obtain ⟨left, hleft⟩ : ∃ left, left =
      (messagesOf requests j).drop (completed msgs (messagesOf requests j) (received j pieces).length).length :=
        ⟨_, rfl⟩
  rw [← hleft] at hadd hsplit
  have hinLeft : ∀ i ∈ left, i ∈ messagesOf requests j := by
    intro i hi
    rw [hleft] at hi
    exact List.mem_of_mem_drop hi
  -- what stands in the buffer belongs to the messages that are left
  have hbuffer : p.inBuffer j ++ piece =
      (received j pieces ++ piece).drop (consumed msgs (messagesOf requests j) (received j pieces).length) := by
    rw [hd.inBuffer, List.drop_append_of_le_length hle]
  have hprefix : p.inBuffer j ++ piece <+: body msgs left := by
    have hbody : body msgs (messagesOf requests j) =
        (completed msgs (messagesOf requests j) (received j pieces).length).flatMap (frameAt msgs) ++
          body msgs left := by
      conv_lhs => rw [← hsplit]
      rw [body, List.flatMap_append, List.append_assoc]
      rfl
    rw [hbuffer]
    have hdrop := hpiece.drop (consumed msgs (messagesOf requests j) (received j pieces).length)
    rw [hbody, consumed, List.drop_left] at hdrop
    exact hdrop
  have hlen : (p.inBuffer j ++ piece).length = (received j pieces).length + piece.length -
      consumed msgs (messagesOf requests j) (received j pieces).length := by
    rw [hbuffer, List.length_drop, List.length_append]
  have hparse := parseEmitIncoming_body (h := p.handler) (fun i hi => hsend j i (hinLeft i hi)) hprefix
    (Nat.le_refl _)
  rw [← hlen] at hadd
  generalize hnew : completed msgs left (p.inBuffer j ++ piece).length = new at hadd hparse
  have hnewLeft : ∀ i ∈ new, i ∈ left := fun i hi => (completed_front msgs left _).subset (hnew ▸ hi)
  have hnodup := hspread.nodup j
  rw [← hsplit, List.nodup_append'] at hnodup
  have hconsumed : consumed msgs (messagesOf requests j) (received j pieces ++ piece).length =
      consumed msgs (messagesOf requests j) (received j pieces).length +
        consumed msgs left (p.inBuffer j ++ piece).length := by
    have hlength : (received j pieces ++ piece).length = (received j pieces).length + piece.length :=
      List.length_append
    unfold consumed
    rw [hlength, hadd, hnew, List.flatMap_append, List.length_append]
  have hvalid : ∀ i ∈ new, i < msgs.length := by
    intro i hi
    obtain ⟨m, hm, _⟩ := hsend j i (hinLeft i (hnewLeft i hi))
    exact (List.getElem?_eq_some_iff.1 hm).1
  have hfresh : ∀ i ∈ new, ¬ ∃ j', i ∈ arrivedOf msgs requests pieces j' := by
    rintro i hi ⟨j', hj'⟩
    have hmem : i ∈ messagesOf requests j' := (completed_front _ _ _).subset hj'
    obtain rfl := hspread.disjoint i j' j hmem (hinLeft i (hnewLeft i hi))
    exact hnodup.2.2 hj' (hnewLeft i hi)
  have hhandler := hd.handler.addAll hvalid hfresh (hnodup.2.1.sublist (hnew ▸ (completed_front msgs left _).sublist))
  have hstep : p.handleIncomingMessage j piece =
      { handler := new.foldl (fun h i => h.add (1 + i) (dataAt msgs i)) p.handler
        inBuffer := Function.update p.inBuffer j
          ((p.inBuffer j ++ piece).drop (consumed msgs left (p.inBuffer j ++ piece).length)) } := by
    exact congrArg (fun r : Handler × List UInt8 =>
      ({ handler := r.1, inBuffer := Function.update p.inBuffer j r.2 } : Proxy))
      hparse
  rw [hstep]
  constructor
  · have hA : (fun i => ∃ j', i ∈ arrivedOf msgs requests (pieces ++ [(j, piece)]) j') =
        fun i => (∃ j', i ∈ arrivedOf msgs requests pieces j') ∨ i ∈ new := by
      funext i
      refine propext ⟨?_, ?_⟩
      · rintro ⟨j', hj'⟩
        unfold arrivedOf at hj'
        by_cases hne : j' = j
        · subst hne
          rw [hreceived, List.length_append, hadd, List.mem_append] at hj'
          exact hj'.imp (fun h => ⟨_, h⟩) id
        · rw [hothers j' hne] at hj'
          exact .inl ⟨j', hj'⟩
      · rintro (⟨j', hj'⟩ | hi)
        · refine ⟨j', ?_⟩
          unfold arrivedOf at hj' ⊢
          by_cases hne : j' = j
          · subst hne
            rw [hreceived, List.length_append, hadd, List.mem_append]
            exact .inl hj'
          · rw [hothers j' hne]
            exact hj'
        · refine ⟨j, ?_⟩
          unfold arrivedOf
          rw [hreceived, List.length_append, hadd, List.mem_append]
          exact .inr hi
    rw [hA]
    exact hhandler
  · intro j'
    dsimp only
    by_cases hne : j' = j
    · subst hne
      rw [Function.update_self, hreceived, hconsumed, hbuffer, List.drop_drop]
    · rw [Function.update_of_ne hne, hothers j' hne]
      exact hd.inBuffer j'

theorem delivered_new (hsend : ∀ j, ∀ i ∈ messagesOf requests j, Sendable msgs i) :
    Delivered msgs requests [] {} where
  handler := by
    have hA : (fun i => ∃ j, i ∈ arrivedOf msgs requests [] j) = fun _ => False := by
      funext i
      refine eq_false ?_
      rintro ⟨j, hj⟩
      have hfs := hsend j
      unfold arrivedOf at hj
      generalize messagesOf requests j = fs at hj hfs
      cases fs with
      | nil => exact absurd hj List.not_mem_nil
      | cons i' fs =>
        obtain ⟨_, _, _, _, hpos⟩ := (hfs i' (List.mem_cons_self ..)).frame_eq
        have hzero : ¬ (frameAt msgs i').length ≤ (received j []).length := Nat.not_le.2 hpos
        rw [completed, if_neg hzero] at hj
        exact absurd hj List.not_mem_nil
    rw [hA]
    exact settled_new
  inBuffer := fun j => List.drop_nil.symm

theorem delivered_arrivals (hspread : Spread requests) (hsend : ∀ j, ∀ i ∈ messagesOf requests j, Sendable msgs i)
    (pieces : List (Nat × List UInt8)) (hpieces : ∀ j, received j pieces <+: body msgs (messagesOf requests j)) :
    Delivered msgs requests pieces (Proxy.arrivals pieces) := by
  induction pieces using List.reverseRecOn with
  | nil => exact delivered_new hsend
  | append_singleton pieces piece ih =>
    have hbefore : ∀ j, received j pieces <+: body msgs (messagesOf requests j) := by
      intro j
      have hj := hpieces j
      rw [received_concat] at hj
      exact (List.prefix_append _ _).trans hj
    unfold Proxy.arrivals
    rw [List.foldl_append]
    exact (ih hbefore).arrive hspread hsend piece.1 piece.2 (hpieces piece.1)

/-- How many messages have arrived with all those before them. -/
def arrivedInOrder (msgs : List Message) (requests : List (List Nat)) (pieces : List (Nat × List UInt8)) : Nat :=
  ((List.range msgs.length).takeWhile fun i =>
    (List.range requests.length).any fun j => (arrivedOf msgs requests pieces j).contains i).length

theorem length_takeWhile_range {P : Nat → Bool} {k n : Nat} (hk : k ≤ n) (hbefore : ∀ i < k, P i = true)
    (hmissing : k < n → P k = false) : ((List.range n).takeWhile P).length = k := by
  obtain ⟨m, rfl⟩ := Nat.exists_eq_add_of_le hk
  rw [List.range_add, List.takeWhile_append_of_pos fun i hi => hbefore i (List.mem_range.1 hi), List.length_append,
    List.length_range]
  cases m with
  | zero => rfl
  | succ m =>
    have hfirst : P (k + 0) = false := hmissing (by omega)
    rw [List.range_succ_eq_map, List.map_cons, List.takeWhile_cons_of_neg (by rw [hfirst]; decide)]
    rfl

/-- The messages are handled once and in order, each as soon as those before it have arrived. -/
theorem proxy_in_order (msgs : List Message) (requests : List (List Nat)) (pieces : List (Nat × List UInt8))
    (hfits : ∀ i m, msgs[i]? = some m → Fits m (1 + i)) (hrequests : requests.flatten.Perm (List.range msgs.length))
    (hpieces : ∀ j, received j pieces <+: body msgs (messagesOf requests j)) :
    (Proxy.arrivals pieces).handler.handled =
        (msgs.take (arrivedInOrder msgs requests pieces)).map Message.data ∧
      ((∀ j < requests.length, received j pieces = body msgs (messagesOf requests j)) →
        (Proxy.arrivals pieces).handler.handled = msgs.map Message.data) := by
  have hspread := spread_of_nodup (hrequests.nodup_iff.2 List.nodup_range)
  have hmem : ∀ {j i}, i ∈ messagesOf requests j → j < requests.length ∧ i < msgs.length := by
    intro j i hi
    unfold messagesOf at hi
    rcases Nat.lt_or_ge j requests.length with hj | hj
    · rw [List.getElem?_eq_getElem hj, Option.getD_some] at hi
      exact ⟨hj, List.mem_range.1 (hrequests.mem_iff.1 (List.mem_flatten.2 ⟨_, List.getElem_mem hj, hi⟩))⟩
    · rw [List.getElem?_eq_none hj, Option.getD_none] at hi
      exact absurd hi List.not_mem_nil
  have hsend : ∀ j, ∀ i ∈ messagesOf requests j, Sendable msgs i := by
    intro j i hi
    exact ⟨_, List.getElem?_eq_getElem (hmem hi).2, hfits i _ (List.getElem?_eq_getElem (hmem hi).2)⟩
  have hd := (delivered_arrivals hspread hsend pieces hpieces).handler
  have hle : (Proxy.arrivals pieces).handler.handled.length ≤ msgs.length := by
    have hlen := congrArg List.length hd.handled
    rw [List.length_map, List.length_take] at hlen
    omega
  constructor
  · have hcount : arrivedInOrder msgs requests pieces = (Proxy.arrivals pieces).handler.handled.length := by
      unfold arrivedInOrder
      refine length_takeWhile_range hle (fun i hi => ?_) (fun _ => ?_)
      · obtain ⟨j, hj⟩ := hd.before i hi
        rw [List.any_eq_true]
        exact ⟨j, List.mem_range.2 (hmem ((completed_front _ _ _).subset hj)).1, List.contains_iff_mem.2 hj⟩
      · rw [List.any_eq_false]
        intro j _ hj
        exact hd.missing ⟨j, List.contains_iff_mem.1 hj⟩
    rw [hcount]
    exact hd.handled
  · intro hall
    have hend : (Proxy.arrivals pieces).handler.handled.length = msgs.length := by
      by_contra hne
      -- the next message is in a request whose body has arrived
      have hlt : (Proxy.arrivals pieces).handler.handled.length < msgs.length := by omega
      obtain ⟨fs, hfs, hi⟩ := List.mem_flatten.1 (hrequests.mem_iff.2 (List.mem_range.2 hlt))
      obtain ⟨j, hj, rfl⟩ := List.mem_iff_getElem.1 hfs
      have hof : messagesOf requests j = requests[j] := by
        rw [messagesOf, List.getElem?_eq_getElem hj, Option.getD_some]
      refine hd.missing ⟨j, ?_⟩
      unfold arrivedOf
      rw [hall j hj, completed_body, hof]
      exact hi
    have hhandled := hd.handled
    rw [hend, List.take_length] at hhandled
    exact hhandled

end Requests

/-- The second message arrives first, and the first one in two pieces. -/
theorem proxy_in_order_two :
    (Proxy.arrivals [(0, text "B0x2\n0x0\n\n"), (1, text "T0x1\n0x4\na\n"), (0, text "."),
    (1, text ".b\n.")]).handler.handled =
      [text "a\n.b", []] := by
  have hall := (proxy_in_order [⟨true, text "a\n.b"⟩, ⟨false, []⟩] [[1], [0]]
    [(0, text "B0x2\n0x0\n\n"), (1, text "T0x1\n0x4\na\n"), (0, text "."), (1, text ".b\n.")] ?_ (by decide) ?_).2 ?_
  · exact hall
  · intro i m hm
    match i with
    | 0 =>
      cases hm
      exact ⟨by decide, by decide +kernel⟩
    | 1 =>
      cases hm
      exact ⟨by decide, by decide +kernel⟩
    | _ + 2 => cases hm
  · intro j
    match j with
    | 0 => exact List.isPrefixOf_iff_prefix.1 (by decide +kernel)
    | 1 => exact List.isPrefixOf_iff_prefix.1 (by decide +kernel)
    | j + 2 =>
      have hnone : received (j + 2)
          [(0, text "B0x2\n0x0\n\n"), (1, text "T0x1\n0x4\na\n"), (0, text "."), (1, text ".b\n.")] = [] := by
        simp [received]
      rw [hnone]
      exact List.nil_prefix
  · decide +kernel

end ProxyProtocol

end CollaboraOnline
