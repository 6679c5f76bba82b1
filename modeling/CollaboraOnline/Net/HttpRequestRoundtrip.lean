import CollaboraOnline.Net.HttpRequestStream

/-!
# The round trip of a request

The parser gets in pieces what `writeData` wrote, and further bytes.  It takes exactly the request when the body ends
with an arrival (`request_roundtrip_iff`).
-/

namespace CollaboraOnline

namespace Http

open Arrivals

/-! ### The run -/

section Run

variable {r : Request} {poco : List UInt8 → HeaderRead} {stream further p piece rest body : List UInt8} {k c n : Nat}
  {s s' : RequestParser} {t : Transfer RequestParser UInt8}

/-- The request line was read. -/
structure HasLine (r : Request) (s : RequestParser) : Prop where
  verb : s.verb = r.verb
  url : s.url = r.url
  version : s.version = r.version

/-- The parser is in the body and has kept `body`. -/
structure InRequestBody (r : Request) (s : RequestParser) (body : List UInt8) : Prop extends HasLine r s where
  stage : s.stage = .Body
  header : s.header = r.back
  size : s.recvBodySize = body.length
  body : s.body = body

/-- The parser once it has read the request line. -/
def lined (r : Request) (s : RequestParser) : RequestParser :=
  { s with verb := r.verb, url := r.url, version := r.version, stage := .Header }

structure Parsed (r : Request) (s : RequestParser) (body : List UInt8) : Prop extends HasLine r s where
  stage : s.stage = .Finished
  body : s.body = body

/-- The parser has read nothing, or the request line. -/
structure WaitsRequest (r : Request) (stream : List UInt8) (k : Nat) (t : Transfer RequestParser UInt8) : Prop
    extends Offered stream k t where
  header : t.reader.header = {}
  size : t.reader.recvBodySize = 0
  body : t.reader.body = []
  line : (t.consumed = 0 ∧ t.reader.stage = .RequestLine) ∨
    (t.consumed = r.line.length + 1 ∧ t.reader.stage = .Header ∧ HasLine r t.reader)

theorem waitsRequest_new : WaitsRequest r stream 0 ⟨{}, [], 0, false⟩ where
  toOffered := offered_new _
  header := rfl
  size := rfl
  body := rfl
  line := .inl ⟨rfl, rfl⟩

theorem length_head (r : Request) : r.head.length = r.line.length + 1 + (block r.lines).length := by
  rw [Request.head_eq, List.length_append, List.length_cons]
  omega

theorem lines_spec (hw : r.WellFormed) : ∃ line lines, r.lines = line :: lines ∧ LF ∉ line ++ [CR] ∧
    (∀ line ∈ lines, line ≠ [] ∧ LF ∉ line) ∧ 4 ≤ (block r.lines).length :=
  fieldLines_spec hw.headers hw.fields

/-- The header is taken when it is complete. -/
theorem readHeader_request (hw : r.WellFormed)
    (hpoco : ∀ rest, poco (block r.lines ++ rest) = .fields r.header.headers)
    (hp : p <+: block r.lines ++ rest) (hs : s.stage = .Header) (hheader : s.header = {}) :
    (p.length < (block r.lines).length → s.readHeader poco p = (some 0, s)) ∧
    ((block r.lines).length ≤ p.length → s.readHeader poco p =
      ((({ s with header := r.back, stage := .Body } : RequestParser).readBody (p.drop (block r.lines).length)).1.map
          ((block r.lines).length + ·),
        (({ s with header := r.back, stage := .Body } : RequestParser).readBody
          (p.drop (block r.lines).length)).2)) := by
  obtain ⟨line, lines, hlines, hline, hrest, hlong⟩ := lines_spec hw
  have hback : r.back = Header.read {} r.header.headers := rfl
  rw [hlines, block_cons] at hlong hpoco hp ⊢
  obtain ⟨hless, hmore⟩ := parse_block hrest hline hlong hpoco hp s.header
  constructor
  · intro hlt
    unfold RequestParser.readHeader
    rw [if_pos hs, hless hlt]
    rfl
  · intro hle
    unfold RequestParser.readHeader
    rw [if_pos hs, hmore hle, hheader]
    dsimp only
    rw [if_neg (by omega), hback]

/-- An arrival before the end of the head, and the one that has it. -/
theorem readData_request (hw : r.WellFormed) (hurl : r.url ≠ [])
    (hpoco : ∀ rest, poco (block r.lines ++ rest) = .fields r.header.headers) (hstream : stream = r.head ++ rest)
    (hwait : WaitsRequest r stream c t) (hck : c ≤ k) (hk : k ≤ stream.length) :
    (k < r.head.length → ∃ n s', t.reader.readData poco ((stream.take k).drop t.consumed) = (some n, s') ∧
      s'.header = {} ∧ s'.recvBodySize = 0 ∧ s'.body = [] ∧
      ((t.consumed + n = 0 ∧ s'.stage = .RequestLine) ∨
        (t.consumed + n = r.line.length + 1 ∧ t.consumed + n ≤ k ∧ s'.stage = .Header ∧ HasLine r s'))) ∧
    (r.head.length ≤ k → ∃ s', InRequestBody r s' [] ∧ ∃ m, t.consumed + m = r.head.length ∧
      t.reader.readData poco ((stream.take k).drop t.consumed) =
        ((s'.readBody ((stream.take k).drop r.head.length)).1.map (m + ·),
          (s'.readBody ((stream.take k).drop r.head.length)).2)) := by
  have hhead := length_head r
  have hle := hwait.le
  have hlen : (stream.take k).length = k := by
    rw [List.length_take]
    omega
  have hdropLine : stream.drop (r.line.length + 1) = block r.lines ++ rest := by
    rw [hstream, Request.head_eq, List.append_assoc, ← List.drop_drop, List.drop_left]
    rfl
  have hahead : (stream.take k).drop (r.line.length + 1) <+: block r.lines ++ rest := by
    rw [← hdropLine, List.drop_take]
    exact List.take_prefix ..
  have haheadLen : ((stream.take k).drop (r.line.length + 1)).length = k - (r.line.length + 1) := by
    rw [List.length_drop, hlen]
  rcases hwait.line with ⟨hconsumed, hstage⟩ | ⟨hconsumed, hstage, hline⟩
  · rw [hconsumed, List.drop_zero]
    have hp : stream.take k <+: r.line ++ LF :: (block r.lines ++ rest) := by
      have hstream' : r.line ++ LF :: (block r.lines ++ rest) = stream := by
        rw [hstream, Request.head_eq]
        simp
      rw [hstream']
      exact List.take_prefix ..
    obtain ⟨hless, hmore⟩ := parseLine_prefix hw hurl hp t.reader
    rw [hlen] at hless hmore
    rcases Nat.lt_or_ge r.line.length k with hlt | hge
    · have hstep : t.reader.readData poco (stream.take k) =
          (((lined r t.reader).readHeader poco ((stream.take k).drop (r.line.length + 1))).1.map
            (r.line.length + 1 + ·),
            ((lined r t.reader).readHeader poco ((stream.take k).drop (r.line.length + 1))).2) := by
        unfold RequestParser.readData
        rw [if_pos hstage, hmore hlt]
        rfl
      obtain ⟨hwaits, htakes⟩ := readHeader_request (s := lined r t.reader) hw hpoco hahead rfl hwait.header
      rw [haheadLen] at hwaits htakes
      constructor
      · intro hshort
        rw [hwaits (by omega)] at hstep
        exact ⟨r.line.length + 1 + 0, _, hstep, hwait.header, hwait.size, hwait.body,
          .inr ⟨by omega, by omega, rfl, rfl, rfl, rfl⟩⟩
      · intro hlong
        rw [htakes (by omega)] at hstep
        refine ⟨{ lined r t.reader with header := r.back, stage := .Body },
          ⟨⟨rfl, rfl, rfl⟩, rfl, rfl, hwait.size, hwait.body⟩, r.head.length, by omega, ?_⟩
        rw [hstep, List.drop_drop, hhead, Option.map_map]
        congr 2
        funext m
        simp only [Function.comp_apply]
        omega
    · obtain ⟨s', hparse, hkeeps⟩ := hless hge
      refine ⟨fun _ => ⟨0, s', ?_, hkeeps.header.trans hwait.header, hkeeps.size.trans hwait.size,
        hkeeps.body.trans hwait.body, .inl ⟨rfl, hkeeps.stage.trans hstage⟩⟩, fun hlong => by omega⟩
      unfold RequestParser.readData
      rw [if_pos hstage, hparse]
      dsimp only
      rw [if_pos (hkeeps.stage.trans hstage)]
  · rw [hconsumed]
    have hstep : t.reader.readData poco ((stream.take k).drop (r.line.length + 1)) =
        t.reader.readHeader poco ((stream.take k).drop (r.line.length + 1)) := by
      unfold RequestParser.readData
      rw [if_neg (by rw [hstage]; decide)]
    obtain ⟨hwaits, htakes⟩ := readHeader_request hw hpoco hahead hstage hwait.header
    rw [haheadLen] at hwaits htakes
    constructor
    · intro hshort
      exact ⟨0, t.reader, hstep.trans (hwaits (by omega)), hwait.header, hwait.size, hwait.body,
        .inr ⟨rfl, by omega, hstage, hline⟩⟩
    · intro hlong
      rw [htakes (by omega)] at hstep
      refine ⟨{ t.reader with stage := .Body, header := r.back },
        ⟨⟨hline.verb, hline.url, hline.version⟩, rfl, rfl, hwait.size, hwait.body⟩, (block r.lines).length, by
          omega, ?_⟩
      rw [hstep, List.drop_drop, hhead]

/-- How many bytes were consumed, where nothing failed. -/
def outcome (t : Transfer RequestParser UInt8) : Option Nat := if t.failed then none else some t.consumed

theorem outcome_arrive (hoff : Offered stream k t) (hk : k ≤ stream.length) (hpiece : piece <+: stream.drop k)
    {o : Option Nat} (hread : t.reader.readData poco ((stream.take (k + piece.length)).drop t.consumed) = (o, s)) :
    outcome (t.arrive (RequestParser.readData poco) piece) = o.map (t.consumed + ·) ∧
      (t.arrive (RequestParser.readData poco) piece).reader = s := by
  rw [Transfer.arrive, if_neg (by rw [hoff.ok]; simp), hoff.offer hk hpiece, hread]
  cases o with
  | none => exact ⟨rfl, rfl⟩
  | some n => exact ⟨rfl, rfl⟩

variable (poco) in
theorem readData_inBody (hs : s.stage = .Body) (p : List UInt8) : s.readData poco p = s.readBody p := by
  unfold RequestParser.readData RequestParser.readHeader
  rw [if_neg (by rw [hs]; decide), if_neg (by rw [hs]; decide)]

variable (poco) in
theorem readData_done (hs : s.stage = .Finished) (p : List UInt8) : s.readData poco p = (some 0, s) := by
  unfold RequestParser.readData RequestParser.readHeader RequestParser.readBody
  rw [if_neg (by rw [hs]; decide), if_neg (by rw [hs]; decide), if_pos (by rw [hs]; decide)]

/-- The run of a request: `Mid` is what holds in the body, with so many bytes consumed, and `End` what holds at the
end. -/
theorem run_request (Mid : Nat → RequestParser → Prop) (End : Nat → Option Nat → RequestParser → Prop) {crit : Nat}
    {pieces : List (List UInt8)} (hw : r.WellFormed) (hurl : r.url ≠ [])
    (hpoco : ∀ rest, poco (block r.lines ++ rest) = .fields r.header.headers)
    (hstream : pieces.flatten = r.head ++ rest) (hcrit : r.head.length ≤ crit) (hlen : crit ≤ pieces.flatten.length)
    (hstage : ∀ {c s}, Mid c s → s.stage = .Body) (hstart : ∀ {s}, InRequestBody r s [] → Mid r.head.length s)
    (hmid : ∀ {c k s}, Mid c s → c ≤ k → k ≤ pieces.flatten.length → k < crit →
      ∃ n s', s.readBody ((pieces.flatten.take k).drop c) = (some n, s') ∧ c + n ≤ k ∧ Mid (c + n) s')
    (hend : ∀ {c k s}, Mid c s → c ≤ k → k ≤ pieces.flatten.length → crit ≤ k → c < crit ∨ c = r.head.length →
      End k ((s.readBody ((pieces.flatten.take k).drop c)).1.map (c + ·))
        (s.readBody ((pieces.flatten.take k).drop c)).2)
    (hdone : ∀ c (t : Transfer RequestParser UInt8) piece, End c (outcome t) t.reader →
      End c (outcome (t.arrive (RequestParser.readData poco) piece))
        (t.arrive (RequestParser.readData poco) piece).reader) :
    End (cutAt crit 0 pieces) (outcome (RequestParser.arrivals poco pieces))
      (RequestParser.arrivals poco pieces).reader := by
  have hhead : 0 < r.head.length := by
    rw [length_head]
    omega
  refine run_cut crit pieces.flatten (k := 0)
    (fun k t => (k < r.head.length ∧ WaitsRequest r pieces.flatten k t) ∨
    (Offered pieces.flatten k t ∧ Mid t.consumed t.reader))
    (fun c t => End c (outcome t) t.reader) ?_ ?_ hdone (.inl ⟨hhead, waitsRequest_new⟩) (by omega) rfl hlen
  · intro k t piece hgood hlt hpiece
    have hk : k ≤ pieces.flatten.length := by omega
    rcases hgood with ⟨_, hwait⟩ | ⟨hoff, hbody⟩
    · obtain ⟨hless, hmore⟩ :=
        readData_request (k := k + piece.length) hw hurl hpoco hstream hwait (Nat.le_add_right _ _) (by omega)
      rcases Nat.lt_or_ge (k + piece.length) r.head.length with hshort | hlong
      · obtain ⟨n, s', hread, hheader, hsize, hempty, hline⟩ := hless hshort
        obtain ⟨hoff', hreader, hconsumed⟩ := hwait.toOffered.arrive hk hpiece hread (by omega)
        refine .inl ⟨hshort, hoff', hreader ▸ hheader, hreader ▸ hsize, hreader ▸ hempty, ?_⟩
        rw [hreader, hconsumed]
        rcases hline with hline | ⟨hn, _, hline⟩
        · exact .inl hline
        · exact .inr ⟨hn, hline⟩
      · obtain ⟨s', hin, m, hm, hread⟩ := hmore hlong
        obtain ⟨n, s'', hread', hn, hnext⟩ := hmid (hstart hin) hlong (by omega) hlt
        rw [hread'] at hread
        obtain ⟨hoff', hreader, hconsumed⟩ := hwait.toOffered.arrive (n := m + n) hk hpiece hread (by omega)
        refine .inr ⟨hoff', ?_⟩
        rw [hreader, hconsumed, ← Nat.add_assoc, hm]
        exact hnext
    · have hle := hoff.le
      obtain ⟨n, s', hread, hn, hnext⟩ := hmid hbody (k := k + piece.length) (by omega) (by omega) hlt
      have hdata := (readData_inBody poco (hstage hbody) _).trans hread
      obtain ⟨hoff', hreader, hconsumed⟩ := hoff.arrive hk hpiece hdata hn
      refine .inr ⟨hoff', ?_⟩
      rw [hreader, hconsumed]
      exact hnext
  · intro k t piece hgood hklt hle hpiece
    have hk : k ≤ pieces.flatten.length := by omega
    have hend' : k + piece.length ≤ pieces.flatten.length := by
      rw [← length_take_piece hk hpiece, List.length_take]
      exact Nat.min_le_right _ _
    rcases hgood with ⟨_, hwait⟩ | ⟨hoff, hbody⟩
    · obtain ⟨_, hmore⟩ :=
        readData_request (k := k + piece.length) hw hurl hpoco hstream hwait (Nat.le_add_right _ _) hend'
      obtain ⟨s', hin, m, hm, hread⟩ := hmore (by omega)
      obtain ⟨houtcome, hreader⟩ := outcome_arrive hwait.toOffered hk hpiece hread
      have hfinal := hend (hstart hin) (k := k + piece.length) (by omega) hend' hle (.inr rfl)
      rw [houtcome, hreader, Option.map_map]
      have hsum : ((t.consumed + ·) ∘ (m + ·)) = (r.head.length + ·) := by
        funext n
        simp only [Function.comp_apply]
        omega
      rw [hsum]
      exact hfinal
    · have hle' := hoff.le
      obtain ⟨houtcome, hreader⟩ := outcome_arrive hoff hk hpiece (readData_inBody poco (hstage hbody) _)
      rw [houtcome, hreader]
      exact hend hbody (by omega) hend' hle (.inl (by omega))

/-! ### The kinds of requests -/

variable (poco) in
theorem arrive_parsed (hs : t.reader.stage = .Finished) (piece : List UInt8) :
    outcome (t.arrive (RequestParser.readData poco) piece) = outcome t ∧
      (t.arrive (RequestParser.readData poco) piece).reader = t.reader := by
  unfold outcome Transfer.arrive
  by_cases hfailed : t.failed = true
  · rw [if_pos hfailed]
    exact ⟨rfl, rfl⟩
  · rw [if_neg hfailed, readData_done poco hs, if_neg hfailed]
    exact ⟨rfl, rfl⟩

theorem parsed_persists {body : List UInt8} (n : Nat) (h : outcome t = some n ∧ Parsed r t.reader body)
    (piece : List UInt8) : outcome (t.arrive (RequestParser.readData poco) piece) = some n ∧
      Parsed r (t.arrive (RequestParser.readData poco) piece).reader body := by
  obtain ⟨houtcome, hreader⟩ := arrive_parsed poco h.2.stage piece
  rw [houtcome, hreader]
  exact h

variable {pieces : List (List UInt8)}

theorem run_get (hw : r.WellFormed) (hurl : r.url ≠ []) (hverb : r.verb = VERB_GET)
    (hpoco : ∀ rest, poco (block r.lines ++ rest) = .fields r.header.headers)
    (hstream : pieces.flatten = r.head ++ rest) : outcome (RequestParser.arrivals poco pieces) = some r.head.length ∧
      Parsed r (RequestParser.arrivals poco pieces).reader [] := by
  refine run_request (fun c s => c = r.head.length ∧ InRequestBody r s [])
    (fun _ o s => o = some r.head.length ∧ Parsed r s []) hw hurl hpoco hstream (Nat.le_refl _)
    (by rw [hstream, List.length_append]; omega) (fun h => h.2.stage) (fun h => ⟨rfl, h⟩) ?_ ?_
    (fun c t piece h => parsed_persists _ h piece)
  · intro c k s hmid hck _ hk
    have := hmid.1
    omega
  · rintro c k s ⟨rfl, hin⟩ _ _ _ _
    have hread : s.readBody ((pieces.flatten.take k).drop r.head.length) =
        (some 0, { s with stage := .Finished }) := by
      unfold RequestParser.readBody
      rw [if_neg (by rw [hin.stage]; decide), if_pos (hin.verb.trans hverb)]
    rw [hread]
    exact ⟨rfl, ⟨hin.verb, hin.url, hin.version⟩, rfl, hin.body⟩

theorem post_ne_get : VERB_POST ≠ VERB_GET := by decide

/-- The body of known length takes all that has arrived. -/
theorem readBody_post (hw : r.WellFormed) (hverb : r.verb = VERB_POST) (hchunked : r.chunked = false)
    (hin : InRequestBody r s body) (p : List UInt8) : s.readBody p = (some p.length,
      if 0 < p.length ∧ (r.body.flatten.length : Int) ≤ ((body ++ p).length : Nat) then
        { s with body := body ++ p, recvBodySize := (body ++ p).length, stage := .Finished }
      else { s with body := body ++ p, recvBodySize := (body ++ p).length }) := by
  obtain ⟨_, hback, hhas, hlength⟩ := (hw.post hverb).resolve_left fun h => by rw [h.1] at hchunked; cases hchunked
  unfold RequestParser.readBody
  rw [if_neg (by rw [hin.stage]; decide), if_neg (by rw [hin.verb, hverb]; exact post_ne_get),
    if_pos (hin.verb.trans hverb), if_neg (by rw [hin.header, hhas]; simp), if_neg (by rw [hin.header, hback]; simp)]
  dsimp only
  rw [hin.header, hhas, hlength, hin.size, hin.body, List.length_append]
  simp

theorem run_post_length (hw : r.WellFormed) (hurl : r.url ≠ []) (hverb : r.verb = VERB_POST)
    (hchunked : r.chunked = false) (hbody : r.body.flatten ≠ [])
    (hpoco : ∀ rest, poco (block r.lines ++ rest) = .fields r.header.headers)
    (hstream : pieces.flatten = r.head ++ (r.body.flatten ++ further)) :
    outcome (RequestParser.arrivals poco pieces) = some (cutAt (r.head.length + r.body.flatten.length) 0 pieces) ∧
      Parsed r (RequestParser.arrivals poco pieces).reader
        ((pieces.flatten.take (cutAt (r.head.length + r.body.flatten.length) 0 pieces)).drop r.head.length) := by
  have hpos := List.length_pos_iff.2 hbody
  have hread {s : RequestParser} {body : List UInt8} (hin : InRequestBody r s body) (p : List UInt8) :=
    readBody_post hw hverb hchunked hin p
  have hsplit : ∀ {c k : Nat}, r.head.length ≤ c → c ≤ k → k ≤ pieces.flatten.length →
      (pieces.flatten.take c).drop r.head.length ++ (pieces.flatten.take k).drop c =
        (pieces.flatten.take k).drop r.head.length := by
    intro c k hc hck hk
    have htake : pieces.flatten.take k = pieces.flatten.take c ++ (pieces.flatten.take k).drop c := by
      conv_lhs => rw [← List.take_append_drop c (pieces.flatten.take k), List.take_take, Nat.min_eq_left hck]
    conv_rhs => rw [htake, List.drop_append_of_le_length (by rw [List.length_take]; omega)]
  have hdropLen : ∀ {c k : Nat}, k ≤ pieces.flatten.length → ((pieces.flatten.take k).drop c).length = k - c := by
    intro c k hk
    rw [List.length_drop, List.length_take]
    omega
  refine run_request (fun c s => r.head.length ≤ c ∧ InRequestBody r s ((pieces.flatten.take c).drop r.head.length))
    (fun c o s => o = some c ∧ Parsed r s ((pieces.flatten.take c).drop r.head.length)) hw hurl hpoco hstream
    (Nat.le_add_right _ _) (by rw [hstream, List.length_append, List.length_append]; omega)
    (fun h => h.2.stage) ?_ ?_ ?_
    (fun c t piece h => parsed_persists _ h piece)
  · intro s hin
    refine ⟨Nat.le_refl _, ?_⟩
    rwa [List.drop_eq_nil_of_le (by rw [List.length_take]; omega)]
  · rintro c k s ⟨hc, hin⟩ hck hk hlt
    have hbodyRead := hread hin ((pieces.flatten.take k).drop c)
    rw [hsplit hc hck hk, hdropLen hk, hdropLen hk, if_neg (by omega)] at hbodyRead
    refine ⟨k - c, _, hbodyRead, by omega, by omega, ?_⟩
    rw [Nat.add_sub_cancel' hck]
    exact ⟨⟨hin.verb, hin.url, hin.version⟩, hin.stage, hin.header, (hdropLen hk).symm, rfl⟩
  · rintro c k s ⟨hc, hin⟩ hck hk hge hlt
    have hbodyRead := hread hin ((pieces.flatten.take k).drop c)
    rw [hsplit hc hck hk, hdropLen hk, hdropLen hk, if_pos (by omega)] at hbodyRead
    rw [hbodyRead]
    exact ⟨congrArg some (Nat.add_sub_cancel' hck), ⟨hin.verb, hin.url, hin.version⟩, rfl, rfl⟩

/-- An announced empty body never ends, or takes what stands behind it. -/
theorem run_post_empty (hw : r.WellFormed) (hurl : r.url ≠ []) (hverb : r.verb = VERB_POST)
    (hchunked : r.chunked = false) (hempty : r.body.flatten = [])
    (hpoco : ∀ rest, poco (block r.lines ++ rest) = .fields r.header.headers)
    (hstream : pieces.flatten = r.head ++ rest) : (RequestParser.arrivals poco pieces).reader.stage ≠ .Finished ∨
    (RequestParser.arrivals poco pieces).reader.body ≠ [] := by
  have hread : ∀ {s : RequestParser}, InRequestBody r s [] → ∀ p,
      InRequestBody r (s.readBody p).2 [] ∨ (s.readBody p).2.stage = .Finished ∧ (s.readBody p).2.body ≠ [] := by
    intro s hin p
    rw [readBody_post hw hverb hchunked hin p, hempty]
    by_cases hp : p = []
    · subst hp
      exact .inl ⟨⟨hin.verb, hin.url, hin.version⟩, hin.stage, hin.header, rfl, rfl⟩
    · have hpos := List.length_pos_iff.2 hp
      rw [if_pos ⟨hpos, by rw [List.length_nil]; omega⟩]
      exact .inr ⟨rfl, hp⟩
  have hend := run_request (fun c s => c = r.head.length ∧ InRequestBody r s [])
    (fun _ _ s => InRequestBody r s [] ∨ s.stage = .Finished ∧ s.body ≠ []) hw hurl hpoco hstream (Nat.le_refl _)
    (by rw [hstream, List.length_append]; omega) (fun h => h.2.stage) (fun h => ⟨rfl, h⟩) ?_ ?_ ?_
  · rcases hend with hin | hfin
    · exact .inl (by rw [hin.stage]; decide)
    · exact .inr hfin.2
  · intro c k s hmid hck _ hk
    have := hmid.1
    omega
  · intro c k s hmid _ _ _ _
    exact hread hmid.2 _
  · intro c t piece h
    rcases h with hin | hfin
    · unfold Transfer.arrive
      by_cases hfailed : t.failed = true
      · rw [if_pos hfailed]
        exact .inl hin
      · rw [if_neg hfailed, readData_inBody poco hin.stage]
        have hnext := hread hin (t.left ++ piece)
        generalize t.reader.readBody (t.left ++ piece) = o at hnext
        rcases o with ⟨_ | n, s⟩
        · exact hnext
        · exact hnext
    · obtain ⟨_, hreader⟩ := arrive_parsed poco hfin.1 piece
      rw [hreader]
      exact .inr hfin


/-- The loop over the chunks in the body. -/
theorem readBody_chunks (hverb : r.verb = VERB_POST) (hback : r.back.chunked = true) (hin : InRequestBody r s body)
    (p : List UInt8) : s.readBody p = ((readChunks p.length p).consumed,
      if (readChunks p.length p).finished then
        { s with body := body ++ (readChunks p.length p).body
                 recvBodySize := (body ++ (readChunks p.length p).body).length, stage := .Finished }
      else { s with body := body ++ (readChunks p.length p).body
                    recvBodySize := (body ++ (readChunks p.length p).body).length }) := by
  unfold RequestParser.readBody
  rw [if_neg (by rw [hin.stage]; decide), if_neg (by rw [hin.verb, hverb]; exact post_ne_get),
    if_pos (hin.verb.trans hverb), if_neg (by rw [hin.header, hback]; simp), if_pos (by rw [hin.header]; exact hback)]
  dsimp only
  rw [hin.size, hin.body, List.length_append]

/-- The chunks of a body. -/
def Request.chunks (r : Request) : List Chunk := r.body.map chunkOf

theorem chunks_spec (hw : r.WellFormed) (hchunked : r.chunked = true) : (∀ c ∈ r.chunks, c.WellFormed) ∧
    r.chunks.flatMap Chunk.data = r.body.flatten ∧
    r.bytes = r.head ++ (r.chunks.flatMap Chunk.bytes ++ lastChunk.bytes) := by
  refine ⟨?_, ?_, ?_⟩
  · intro c hc
    obtain ⟨data, hdata, rfl⟩ := List.mem_map.1 hc
    obtain ⟨hne, hlen⟩ := hw.blocks data hdata
    exact chunkOf_wellFormed hne hlen
  · have hdata : (Chunk.data ∘ chunkOf) = id := rfl
    rw [Request.chunks, List.flatMap_map, ← List.flatMap_id]
    exact congrArg (List.flatMap · r.body) hdata
  · have hblocks : r.body.flatMap (Request.block true) = r.chunks.flatMap Chunk.bytes := by
      rw [Request.chunks, List.flatMap_map]
      exact congrArg (List.flatMap · r.body) (funext block_chunked)
    rw [Request.bytes, hchunked, hblocks, ending_chunked]

theorem run_post_chunked (hw : r.WellFormed) (hurl : r.url ≠ []) (hverb : r.verb = VERB_POST)
    (hchunked : r.chunked = true) (hback : r.back.chunked = true)
    (hpoco : ∀ rest, poco (block r.lines ++ rest) = .fields r.header.headers)
    (hstream : pieces.flatten = r.bytes ++ further) :
    outcome (RequestParser.arrivals poco pieces) = some (cutAt (r.bytes.length - 2) 0 pieces) ∧
      Parsed r (RequestParser.arrivals poco pieces).reader r.body.flatten := by
  obtain ⟨hcs, hdata, hbytes⟩ := chunks_spec hw hchunked
  have hlast : lastChunk.bytes.length = lastChunk.line.length + 1 + 2 := by decide
  have hlen : r.bytes.length = r.head.length + (r.chunks.flatMap Chunk.bytes).length + lastChunk.line.length +
      1 + 2 := by
    rw [hbytes, List.length_append, List.length_append, hlast]
    omega
  have hstream' : pieces.flatten = r.head ++
      (r.chunks.flatMap Chunk.bytes ++ (lastChunk.line ++ LF :: (CRLF ++ further))) := by
    rw [hstream, hbytes, LastChunk.bytes]
    simp
  -- what has arrived behind the chunks that were taken
  have hahead : ∀ {before after : List Chunk}, r.chunks = before ++ after → ∀ k,
      (pieces.flatten.take k).drop (r.head.length + (before.flatMap Chunk.bytes).length) <+:
        after.flatMap Chunk.bytes ++ (lastChunk.line ++ LF :: (CRLF ++ further)) := by
    intro before after h k
    have hdrop : pieces.flatten.drop (r.head.length + (before.flatMap Chunk.bytes).length) =
        after.flatMap Chunk.bytes ++ (lastChunk.line ++ LF :: (CRLF ++ further)) := by
      rw [hstream', h, ← List.drop_drop, List.drop_left, List.flatMap_append, List.append_assoc, List.drop_left]
    rw [List.drop_take, hdrop]
    exact List.take_prefix ..
  have hafter : ∀ {before after : List Chunk}, r.chunks = before ++ after →
      r.bytes.length - 2 = r.head.length + (before.flatMap Chunk.bytes).length +
        ((after.flatMap Chunk.bytes).length + lastChunk.line.length + 1) := by
    intro before after h
    rw [hlen, h, List.flatMap_append, List.length_append]
    omega
  have hwell : ∀ {before after : List Chunk}, r.chunks = before ++ after → ∀ c ∈ after, c.WellFormed := by
    intro before after h c hc
    exact hcs c (h ▸ List.mem_append_right _ hc)
  have hpieces : r.bytes.length ≤ pieces.flatten.length := by
    rw [hstream, List.length_append]
    omega
  have hdropLen : ∀ {c k : Nat}, k ≤ pieces.flatten.length → ((pieces.flatten.take k).drop c).length = k - c := by
    intro c k hk
    rw [List.length_drop, List.length_take]
    omega
  refine run_request
    (fun c s => ∃ before after, r.chunks = before ++ after ∧ c = r.head.length + (before.flatMap Chunk.bytes).length ∧
      InRequestBody r s (before.flatMap Chunk.data))
    (fun c o s => o = some c ∧ Parsed r s r.body.flatten) hw hurl hpoco hstream' (by omega) (by omega)
    (fun ⟨_, _, _, _, h⟩ => h.stage) (fun h => ⟨[], r.chunks, rfl, rfl, h⟩) ?_ ?_
    (fun c t piece h => parsed_persists _ h piece)
  · rintro c k s ⟨before, after, h, rfl, hin⟩ hck hk hlt
    obtain ⟨hless, _⟩ := readChunks_prefix (hwell h) lastChunk_wellFormed (hahead h k) (Nat.le_refl _)
    have hcrit := hafter h
    rw [hdropLen hk] at hless
    obtain ⟨taken, left, h', hle, hchunks⟩ := hless (by omega)
    have hread := readBody_chunks hverb hback hin
      ((pieces.flatten.take k).drop (r.head.length + (before.flatMap Chunk.bytes).length))
    rw [hdropLen hk, hchunks] at hread
    refine ⟨_, _, hread, by omega, before ++ taken, left, by rw [h, h', List.append_assoc], ?_, ?_⟩
    · rw [List.flatMap_append, List.length_append, Nat.add_assoc]
    · rw [List.flatMap_append]
      exact ⟨⟨hin.verb, hin.url, hin.version⟩, hin.stage, hin.header, rfl, rfl⟩
  · rintro c k s ⟨before, after, h, rfl, hin⟩ hck hk hge _
    obtain ⟨_, hmore⟩ := readChunks_prefix (hwell h) lastChunk_wellFormed (hahead h k) (Nat.le_refl _)
    have hcrit := hafter h
    rw [hdropLen hk] at hmore
    have hread := readBody_chunks hverb hback hin
      ((pieces.flatten.take k).drop (r.head.length + (before.flatMap Chunk.bytes).length))
    rw [hdropLen hk, hmore (by omega)] at hread
    rw [hread]
    refine ⟨congrArg some (Nat.add_sub_cancel' hck), ⟨hin.verb, hin.url, hin.version⟩, rfl, ?_⟩
    dsimp only
    rw [if_pos rfl, ← hdata, h, List.flatMap_append]

/-- A body in chunks is an error where the parser does not recognise the encoding. -/
theorem run_post_unrecognised (hw : r.WellFormed) (hurl : r.url ≠ []) (hverb : r.verb = VERB_POST)
    (hchunked : r.chunked = true) (hback : r.back.chunked = false)
    (hpoco : ∀ rest, poco (block r.lines ++ rest) = .fields r.header.headers)
    (hstream : pieces.flatten = r.head ++ rest) : outcome (RequestParser.arrivals poco pieces) = none := by
  refine run_request (fun c s => c = r.head.length ∧ InRequestBody r s [])
    (fun _ o _ => o = none) hw hurl hpoco hstream
    (Nat.le_refl _) (by rw [hstream, List.length_append]; omega) (fun h => h.2.stage) (fun h => ⟨rfl, h⟩) ?_ ?_ ?_
  · intro c k s hmid hck _ hk
    have := hmid.1
    omega
  · rintro c k s ⟨_, hin⟩ _ _ _ _
    have hhas : r.back.hasContentLength = false := by
      rcases hw.post hverb with h | h
      · exact h.2
      · rw [hchunked] at h
        cases h.1
    have hread : s.readBody ((pieces.flatten.take k).drop c) = (none, s) := by
      unfold RequestParser.readBody
      rw [if_neg (by rw [hin.stage]; decide), if_neg (by rw [hin.verb, hverb]; exact post_ne_get),
        if_pos (hin.verb.trans hverb), if_pos (by rw [hin.header, hback, hhas]; rfl)]
    rw [hread]
    rfl
  · intro _ t piece h
    have hfailed : t.failed = true := by
      unfold outcome at h
      by_contra hfailed
      rw [if_neg hfailed] at h
      cases h
    rw [outcome, if_pos (arrive_of_failed hfailed)]

/-- Without a URL the request line is never read. -/
theorem run_noUrl (hw : r.WellFormed) (hurl : r.url = []) (hstream : pieces.flatten = r.head ++ rest) :
    outcome (RequestParser.arrivals poco pieces) = none ∨
      (RequestParser.arrivals poco pieces).reader.stage = .RequestLine := by
  have hstream' : pieces.flatten = r.line ++ LF :: (block r.lines ++ rest) := by
    rw [hstream, Request.head_eq]
    simp
  have hend : (RequestParser.arrivals poco pieces).failed = true ∨
      (Offered pieces.flatten pieces.flatten.length (RequestParser.arrivals poco pieces) ∧
        (RequestParser.arrivals poco pieces).consumed = 0 ∧
        (RequestParser.arrivals poco pieces).reader.stage = .RequestLine) := by
    refine run_all pieces.flatten (fun k (t : Transfer RequestParser UInt8) => t.failed = true ∨
      (Offered pieces.flatten k t ∧ t.consumed = 0 ∧ t.reader.stage = .RequestLine)) ?_ (k := 0)
      (.inr ⟨offered_new _, rfl, rfl⟩) (Nat.zero_le _) rfl
    rintro k t piece hgood hk hpiece
    rcases hgood with hfailed | ⟨hoff, hconsumed, hstage⟩
    · exact .inl (arrive_of_failed hfailed)
    · have hp : (pieces.flatten.take (k + piece.length)).drop t.consumed <+:
          r.line ++ LF :: (block r.lines ++ rest) := by
        rw [hconsumed, List.drop_zero, hstream']
        exact List.take_prefix ..
      rcases parseLine_noUrl hw hurl hp t.reader with ⟨s', hparse, hkeep⟩ | ⟨s', hparse⟩
      · have hread : t.reader.readData poco ((pieces.flatten.take (k + piece.length)).drop t.consumed) =
            (some 0, s') := by
          unfold RequestParser.readData
          rw [if_pos hstage, hparse]
          dsimp only
          rw [if_pos (hkeep.trans hstage)]
        obtain ⟨hoff', hreader, hconsumed'⟩ := hoff.arrive hk hpiece hread (by omega)
        exact .inr ⟨hoff', by omega, by rw [hreader, hkeep, hstage]⟩
      · have hread : t.reader.readData poco ((pieces.flatten.take (k + piece.length)).drop t.consumed) =
            (none, s') := by
          unfold RequestParser.readData
          rw [if_pos hstage, hparse]
        exact .inl (hoff.arrive_failed hk hpiece hread)
  rcases hend with hfailed | ⟨_, _, hstage⟩
  · exact .inl (by rw [outcome, if_pos hfailed])
  · exact .inr hstage

/-! ### The round trip -/

/-- The parser has finished with the request, and has consumed its bytes and no other. -/
def ParsesExactly (t : Transfer RequestParser UInt8) (r : Request) : Prop :=
  t.failed = false ∧ t.reader.stage = .Finished ∧ t.reader.verb = r.verb ∧ t.reader.url = r.url ∧
    t.reader.version = r.version ∧ t.reader.body = r.body.flatten ∧ t.consumed = r.bytes.length

instance (t : Transfer RequestParser UInt8) (r : Request) : Decidable (ParsesExactly t r) :=
  inferInstanceAs (Decidable (_ ∧ _ ∧ _ ∧ _ ∧ _ ∧ _ ∧ _))

/-- A body ends where an arrival ends: the first one that has all of it, or the line of the last chunk. -/
def Request.EndsWithArrival (r : Request) (pieces : List (List UInt8)) : Prop :=
  r.url ≠ [] ∧
    ((r.verb = VERB_GET ∧ r.chunked = false) ∨
      (r.verb = VERB_POST ∧ r.chunked = false ∧ r.body ≠ [] ∧ cutAt r.bytes.length 0 pieces = r.bytes.length) ∨
      (r.verb = VERB_POST ∧ r.chunked = true ∧ r.back.chunked = true ∧
        cutAt (r.bytes.length - 2) 0 pieces = r.bytes.length))

theorem parsesExactly_iff {n : Nat} (hout : outcome t = some n) (hparsed : Parsed r t.reader body)
    (hbody : n = r.bytes.length → body = r.body.flatten) : ParsesExactly t r ↔ n = r.bytes.length := by
  have hok : t.failed = false ∧ t.consumed = n := by
    unfold outcome at hout
    split at hout
    · cases hout
    · rename_i hfailed
      exact ⟨Bool.eq_false_iff.2 hfailed, Option.some.inj hout⟩
  constructor
  · rintro ⟨-, -, -, -, -, -, hconsumed⟩
    omega
  · intro hn
    exact ⟨hok.1, hparsed.stage, hparsed.verb, hparsed.url, hparsed.version, hparsed.body.trans (hbody hn), by omega⟩

theorem not_parsesExactly_of_none (hout : outcome t = none) : ¬ ParsesExactly t r := by
  rintro ⟨hok, -⟩
  rw [outcome, hok] at hout
  cases hout

theorem bytes_length_body (hchunked : r.chunked = false) : r.bytes = r.head ++ r.body.flatten := by
  have hblock : ∀ blocks : List (List UInt8), blocks.flatMap (Request.block false) = blocks.flatten := by
    intro blocks
    induction blocks with
    | nil => rfl
    | cons data blocks ih => rw [List.flatMap_cons, List.flatten_cons, ih, Request.block, if_neg Bool.false_ne_true]
  rw [Request.bytes, hchunked, hblock, Request.ending, if_neg Bool.false_ne_true, List.append_nil]

theorem get_roundtrip (hw : r.WellFormed) (hurl : r.url ≠ []) (hverb : r.verb = VERB_GET)
    (hpoco : ∀ rest, poco (block r.lines ++ rest) = .fields r.header.headers)
    (hstream : pieces.flatten = r.bytes ++ further) :
    ParsesExactly (RequestParser.arrivals poco pieces) r ↔ r.chunked = false := by
  have hbody : r.body = [] := hw.get hverb
  have hstream' : pieces.flatten = r.head ++ (Request.ending r.chunked ++ further) := by
    rw [hstream, Request.bytes, hbody]
    simp
  obtain ⟨hout, hparsed⟩ := run_get hw hurl hverb hpoco hstream'
  rw [parsesExactly_iff hout hparsed fun _ => by rw [hbody]; rfl]
  have hlen : r.bytes.length = r.head.length + (Request.ending r.chunked).length := by
    rw [Request.bytes, hbody]
    simp
  cases hchunked : r.chunked with
  | false =>
    rw [hchunked] at hlen
    exact ⟨fun _ => rfl, fun _ => by rw [hlen]; rfl⟩
  | true =>
    have hending : (Request.ending true).length = 5 := by decide
    rw [hchunked, hending] at hlen
    exact ⟨fun h => by omega, fun h => by cases h⟩

theorem post_length_roundtrip (hw : r.WellFormed) (hurl : r.url ≠ []) (hverb : r.verb = VERB_POST)
    (hchunked : r.chunked = false) (hpoco : ∀ rest, poco (block r.lines ++ rest) = .fields r.header.headers)
    (hstream : pieces.flatten = r.bytes ++ further) :
    ParsesExactly (RequestParser.arrivals poco pieces) r ↔
      r.body ≠ [] ∧ cutAt r.bytes.length 0 pieces = r.bytes.length := by
  have hbytes := bytes_length_body hchunked
  rw [hbytes, List.append_assoc] at hstream
  by_cases hempty : r.body = []
  · have hflatten : r.body.flatten = [] := by
      rw [hempty]
      rfl
    constructor
    · rintro ⟨-, hstage, -, -, -, hbody, -⟩
      rcases run_post_empty hw hurl hverb hchunked hflatten hpoco hstream with h | h
      · exact absurd hstage h
      · exact absurd (hbody.trans hflatten) h
    · intro h
      exact absurd hempty h.1
  · have hflatten : r.body.flatten ≠ [] := by
      obtain ⟨data, hdata⟩ := List.exists_mem_of_ne_nil _ hempty
      intro h
      exact (hw.blocks data hdata).1 (List.flatten_eq_nil_iff.1 h data hdata)
    obtain ⟨hout, hparsed⟩ := run_post_length hw hurl hverb hchunked hflatten hpoco hstream
    have hlen : r.bytes.length = r.head.length + r.body.flatten.length := by rw [hbytes, List.length_append]
    rw [← hlen] at hout hparsed
    rw [parsesExactly_iff hout hparsed]
    · exact ⟨fun h => ⟨hempty, h⟩, And.right⟩
    · intro h
      rw [h, hlen, hstream, ← List.append_assoc, ← List.length_append, List.take_left, List.drop_left]

theorem post_chunked_roundtrip (hw : r.WellFormed) (hurl : r.url ≠ []) (hverb : r.verb = VERB_POST)
    (hchunked : r.chunked = true) (hpoco : ∀ rest, poco (block r.lines ++ rest) = .fields r.header.headers)
    (hstream : pieces.flatten = r.bytes ++ further) :
    ParsesExactly (RequestParser.arrivals poco pieces) r ↔
      r.back.chunked = true ∧ cutAt (r.bytes.length - 2) 0 pieces = r.bytes.length := by
  cases hback : r.back.chunked with
  | true =>
    obtain ⟨hout, hparsed⟩ := run_post_chunked hw hurl hverb hchunked hback hpoco hstream
    rw [parsesExactly_iff hout hparsed fun _ => rfl]
    exact ⟨fun h => ⟨rfl, h⟩, And.right⟩
  | false =>
    rw [Request.bytes, List.append_assoc] at hstream
    have hout := run_post_unrecognised hw hurl hverb hchunked hback hpoco hstream
    exact ⟨fun h => absurd h (not_parsesExactly_of_none hout), fun h => by cases h.1⟩

/-- A request comes back, with nothing left or taken behind it, exactly when its body ends with an arrival. -/
theorem request_roundtrip_iff (poco : List UInt8 → HeaderRead) (r : Request) (capacities : List Nat)
    (further : List UInt8)
    (pieces : List (List UInt8)) (hw : r.WellFormed) (hcapacities : r.body.length < capacities.length)
    (hpoco : ∀ rest, poco (r.header.writeData ++ CRLF ++ rest) = .fields r.header.headers)
    (hstream : pieces.flatten = r.writeAll capacities ++ further) :
    ParsesExactly (RequestParser.arrivals poco pieces) r ↔ r.EndsWithArrival pieces := by
  have hne : VERB_POST ≠ VERB_GET := post_ne_get
  rw [writeAll_eq capacities hw.stage (fun data hdata => (hw.blocks data hdata).1) hcapacities] at hstream
  have hpoco' : ∀ rest, poco (block r.lines ++ rest) = .fields r.header.headers := by
    intro rest
    rw [← r.writeData_eq_block]
    exact hpoco rest
  by_cases hurl : r.url = []
  · have hnever : ¬ ParsesExactly (RequestParser.arrivals poco pieces) r := by
      rw [Request.bytes, List.append_assoc] at hstream
      rcases run_noUrl hw hurl hstream with h | h
      · exact not_parsesExactly_of_none h
      · rintro ⟨-, hstage, -⟩
        rw [h] at hstage
        cases hstage
    exact ⟨fun h => absurd h hnever, fun h => absurd hurl h.1⟩
  rcases hw.verb with hverb | hverb
  · rw [get_roundtrip hw hurl hverb hpoco' hstream, Request.EndsWithArrival, hverb]
    simp [hurl, hne.symm]
  · cases hchunked : r.chunked with
    | false =>
      rw [post_length_roundtrip hw hurl hverb hchunked hpoco' hstream, Request.EndsWithArrival, hverb]
      simp [hurl, hne, hchunked]
    | true =>
      rw [post_chunked_roundtrip hw hurl hverb hchunked hpoco' hstream, Request.EndsWithArrival, hverb]
      simp [hurl, hne, hchunked]

end Run

/-! ### Two requests -/

/-- A POST with an announced body. -/
def Request.announced (length : String) (body : List (List UInt8)) : Request where
  verb := VERB_POST
  url := text "/upload"
  version := text "HTTP/1.1"
  header := { headers := [(Header.CONTENT_LENGTH, text length)] }
  body

theorem announced_wellFormed (length : String) (body : List (List UInt8)) (hlength : LF ∉ text length)
    (hblocks : ∀ data ∈ body, data ≠ [] ∧ data.length ≤ 65536)
    (hpost : (Request.announced length body).chunked = false ∧ (Request.announced length body).back.chunked = false ∧
      (Request.announced length body).back.hasContentLength = true ∧
      (Request.announced length body).back.getContentLength = (body.flatten.length : Int)) :
    (Request.announced length body).WellFormed where
  stage := rfl
  verb := .inr rfl
  url := by
    change Token (text "/upload")
    decide
  version := ⟨0x31, 0x31, rfl, rfl, rfl⟩
  headers := List.cons_ne_nil _ _
  fields := by
    intro pair hpair
    rw [List.mem_singleton.1 hpair]
    have hname : LF ∉ Header.CONTENT_LENGTH := by decide
    exact ⟨hname, hlength⟩
  blocks := hblocks
  get := fun h => absurd h post_ne_get
  post := fun _ => .inr hpost

theorem request_roundtrip_hello :
    ParsesExactly (RequestParser.arrivals (fun _ => .fields [(Header.CONTENT_LENGTH, text "5")])
      [text "POST /upload HT", text "TP/1.1\r\nContent-Length: 5\r\n\r\nhe", text "llo", text "GET"])
      (.announced "5" [text "hel", text "lo"]) :=
  (request_roundtrip_iff _ _ [8, 100, 3] (text "GET") _
    (announced_wellFormed "5" [text "hel", text "lo"] (by decide) (by decide) (by decide))
    (by decide) (fun _ => rfl) (by decide +kernel)).2 (by unfold Request.EndsWithArrival; decide +kernel)

/-- An announced empty body, in one arrival. -/
theorem request_roundtrip_fails : ¬ ∀ (poco : List UInt8 → HeaderRead) (r : Request) (capacities : List Nat)
    (further : List UInt8) (pieces : List (List UInt8)), r.WellFormed → r.body.length < capacities.length →
    (∀ rest, poco (r.header.writeData ++ CRLF ++ rest) = .fields r.header.headers) →
    pieces.flatten = r.writeAll capacities ++ further → ParsesExactly (RequestParser.arrivals poco pieces) r := by
  intro h
  have hparses := h (fun _ => .fields [(Header.CONTENT_LENGTH, text "0")]) (.announced "0" []) [100] []
    [text "POST /upload HTTP/1.1\r\nContent-Length: 0\r\n\r\n"]
    (announced_wellFormed "0" [] (by decide) (by decide) (by decide)) (by decide) (fun _ => rfl) (by decide +kernel)
  revert hparses
  decide +kernel

end Http

end CollaboraOnline
