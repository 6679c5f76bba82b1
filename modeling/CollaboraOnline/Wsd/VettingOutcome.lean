import CollaboraOnline.Lib.Run
import CollaboraOnline.Wsd.RequestVettingStation

/-!
# One outcome for every client

The events of a station, and what its client gets.  A WebSocket waits while the CheckFileInfo is active and is
answered when it is completed, whichever of the two comes last.  A preset installation that fails after that adds a
second answer, and so does a request that reports more than once, as one whose TLS handshake fails.
-/

namespace CollaboraOnline

namespace RequestVettingStation

variable {URI : Type}

inductive Event
  | page
  | webSocket (documentURI : String) (b : Brokers)
  | response (r : Response) (b : Brokers)
  | presets (success : Bool)
  | move

def step (env : Environment URI) (s : RequestVettingStation URI) : Event → Option (RequestVettingStation URI)
  | .page => if s.ws = false ∧ s.checkFileInfo.isNone then some (s.handlePage env) else none
  | .webSocket documentURI b => if s.ws then none else some (s.handleWebSocket env b documentURI)
  | .response r b =>
    -- a connection can fail before and after the response is done
    if s.checkFileInfo.any fun c => c.pending || r = .connectFail then some (s.handleResponse env b r) else none
  | .presets success => if 0 < s.installing then some (s.presetsInstalled success) else none
  | .move => if s.transfer.isSome ∧ s.moved = false then some (s.move env) else none

def IsInit (s : RequestVettingStation URI) : Prop := s = { documentURI := s.documentURI }

/-- A URI that can be read back from its text, as `CheckFileInfo` expects of its own. -/
def ReadsBack (env : Environment URI) (u : URI) : Prop := (sanitizeURI env (env.toString u)).isSome

/-- The request is for a WOPI document. -/
def IsWopi (env : Environment URI) (documentURI : String) : Prop :=
  ∃ u, sanitizeURI env documentURI = some u ∧ env.validate u = .Wopi ∧
    (hasReadonlyPermission env (env.toString u)).isSome

/-- The requests are for WOPI documents. -/
def Wopi (env : Environment URI) (s : RequestVettingStation URI) : Event → Prop
  | .page => IsWopi env s.documentURI
  | .webSocket documentURI _ => IsWopi env documentURI
  | _ => True

/-- The CheckFileInfo waits for its request. -/
def isActive (s : RequestVettingStation URI) : Bool := s.checkFileInfo.any (·.state == .Active)

/-- The finished handler gives up. -/
def GivesUp (b : Brokers) (r : Response) : Prop := b.shutdownRequestFlag = true ∧ r ≠ .connectFail

/-- The URIs that are vetted can be read back, no request reports to the WebSocket after its CheckFileInfo was
completed, and no presets fail between the WebSocket's arrival and its move to the `DocumentBroker`'s poll. -/
def Undisturbed (env : Environment URI) (s : RequestVettingStation URI) (e : Event) : Prop :=
  Wopi env s e ∧
    match e with
    | .page => ∀ u, sanitizeURI env s.documentURI = some u → ReadsBack env u
    | .webSocket documentURI _ => ∀ u, sanitizeURI env documentURI = some u → ReadsBack env u
    | .response r b =>
      (∀ code location body u, r = .answer code location body → sanitizeURI env location = some u → ReadsBack env u) ∧
        (s.ws = false ∨ s.isActive = true ∨ GivesUp b r)
    | .presets success => success = true ∨ s.ws = false ∨ s.moved = true
    | .move => True

/-- Once the WebSocket has arrived and the CheckFileInfo has finished, one thing has happened to the client; it is
handed over only if the CheckFileInfo passed. -/
def OneOutcome (s : RequestVettingStation URI) : Prop :=
  (s.ws = true → s.checkFileInfo.any (·.completed) = true → s.outcomes.length = 1) ∧
    ∀ docKey, .handedOver docKey ∈ s.outcomes → s.checkFileInfo.any (·.state == .Pass) = true

/-! ### What the parts of the station change -/

theorem sendErrorAndShutdown_eq (s : RequestVettingStation URI) (msg : String) :
    s.sendErrorAndShutdown msg = { s with outcomes := s.outcomes ++ if s.ws then [.error msg] else [] } := by
  unfold sendErrorAndShutdown
  rcases s with ⟨_, ws, _, _, _, _, _, _⟩
  cases ws <;> simp

/-- An answer for the client, which is the hand-over only if `passed`. -/
def Answers (passed : Bool) (s s' : RequestVettingStation URI) : Prop :=
  s'.ws = s.ws ∧ s'.checkFileInfo = s.checkFileInfo ∧
    if s.ws then ∃ o, s'.outcomes = s.outcomes ++ [o] ∧ ∀ docKey, o = .handedOver docKey → passed = true
    else s'.outcomes = s.outcomes

theorem answers_error {passed : Bool} (s : RequestVettingStation URI) (msg : String) :
    Answers passed s (s.sendErrorAndShutdown msg) := by
  rw [sendErrorAndShutdown_eq]
  refine ⟨rfl, rfl, ?_⟩
  split <;> rename_i hws
  · exact ⟨.error msg, rfl, fun _ h => nomatch h⟩
  · exact List.append_nil _

theorem answers_createClientSession (b : Brokers) {s : RequestVettingStation URI} (hws : s.ws = true)
    (docKey url : String) (uriPublic : URI) :
    Answers true s (s.createClientSession b docKey url uriPublic) := by
  unfold createClientSession
  split
  · exact answers_error s _
  · refine ⟨rfl, rfl, ?_⟩
    rw [if_pos hws]
    exact ⟨.handedOver docKey, rfl, fun _ _ => rfl⟩

theorem answers_transferToDocBroker (env : Environment URI) (b : Brokers) (s : RequestVettingStation URI)
    {url : String} (h : (sanitizeURI env url).isSome) :
    (s.transferToDocBroker env b url).2 = false ∧ Answers true s (s.transferToDocBroker env b url).1 := by
  obtain ⟨u, hu⟩ := Option.isSome_iff_exists.1 h
  unfold transferToDocBroker
  simp only [hu]
  cases b.error (getDocKey env u) with
  | some error => exact ⟨rfl, answers_error s error⟩
  | none =>
    refine ⟨rfl, ?_⟩
    have hinstall : s.launchInstallPresets.ws = s.ws ∧ s.launchInstallPresets.checkFileInfo = s.checkFileInfo ∧
        s.launchInstallPresets.outcomes = s.outcomes := by
      unfold launchInstallPresets
      split <;> exact ⟨rfl, rfl, rfl⟩
    obtain ⟨hws, hcfi, hout⟩ := hinstall
    by_cases hw : s.ws = true
    · have hcreate := answers_createClientSession b (hws.trans hw) (getDocKey env u) url u
      rw [hws, if_pos hw]
      unfold Answers at hcreate ⊢
      rwa [hws, hcfi, hout] at hcreate
    · rw [hws, if_neg hw]
      refine ⟨hws, hcfi, ?_⟩
      rw [if_neg hw]
      exact hout

/-! ### The invariant -/

/-- The request was sent, and a CheckFileInfo that passed has its info. -/
def Sent (c : CheckFileInfo URI) : Prop :=
  c.state ≠ .None ∧ c.state ≠ .Timedout ∧ (c.state = .Pass → c.wopiInfo.isSome)

theorem sent_start (u : URI) (limit : Nat) : Sent (CheckFileInfo.start u limit) := ⟨nofun, nofun, nofun⟩

/-- What the finished handler leaves of a request. -/
theorem finishedCallback_cases (env : Environment URI) (b : Brokers) (c : CheckFileInfo URI) (code : Nat)
    (location : String) (body : Option WopiInfo) :
    c.finishedCallback env b code location body = (c, false) ∨
    (∃ u limit, sanitizeURI env location = some u ∧
      c.finishedCallback env b code location body = (CheckFileInfo.start u limit, false)) ∨
    ∃ state info, (state = .Unauthorized ∨ state = .Fail ∨ state = .Pass ∧ info.isSome) ∧
      c.finishedCallback env b code location body = ({ c with state := state, wopiInfo := info }, true) := by
  unfold CheckFileInfo.finishedCallback
  split_ifs with hshutdown hredirect hfailed hunauthorized
  · exact .inl rfl
  · cases hu : sanitizeURI env location with
    | none => exact .inl rfl
    | some u => exact .inr (.inl ⟨u, c.redirectLimit - 1, rfl, rfl⟩)
  · exact .inr (.inr ⟨.Unauthorized, c.wopiInfo, .inl rfl, rfl⟩)
  · exact .inr (.inr ⟨.Fail, c.wopiInfo, .inr (.inl rfl), rfl⟩)
  · cases CheckFileInfo.parseResponseAndValidate body with
    | none => exact .inr (.inr ⟨.Fail, none, .inr (.inl rfl), rfl⟩)
    | some info => exact .inr (.inr ⟨.Pass, some info, .inr (.inr ⟨rfl, rfl⟩), rfl⟩)

/-- What a callback leaves of a request: nothing changes but that the response is done, or the request is sent to
another URL, or the CheckFileInfo is completed, with or without success. -/
theorem handleResponse_cases (env : Environment URI) (b : Brokers) (c : CheckFileInfo URI) (r : Response) :
    (∃ pending, c.handleResponse env b r = ({ c with pending := pending }, false)) ∨
    (∃ code location body u limit, r = .answer code location body ∧ sanitizeURI env location = some u ∧
      c.handleResponse env b r = (CheckFileInfo.start u limit, false)) ∨
    ∃ pending state info, (state = .Unauthorized ∨ state = .Fail ∨ state = .Pass ∧ info.isSome) ∧
      c.handleResponse env b r = ({ c with pending := pending, state := state, wopiInfo := info }, true) := by
  cases r with
  | connectFail => exact .inr (.inr ⟨c.pending, .Fail, c.wopiInfo, .inr (.inl rfl), rfl⟩)
  | answer code location body =>
    unfold CheckFileInfo.handleResponse
    dsimp only
    split
    · rcases finishedCallback_cases env b { c with pending := false } code location body with
        h | ⟨u, limit, hu, h⟩ | ⟨state, info, hstate, h⟩
      · exact .inl ⟨false, h⟩
      · exact .inr (.inl ⟨code, location, body, u, limit, rfl, hu, h⟩)
      · exact .inr (.inr ⟨false, state, info, hstate, h⟩)
    · exact .inl ⟨c.pending, rfl⟩

/-- A handler that gives up only notes that the response is done. -/
theorem handleResponse_of_givesUp {env : Environment URI} {b : Brokers} {r : Response} (h : GivesUp b r)
    (c : CheckFileInfo URI) : ∃ pending, c.handleResponse env b r = ({ c with pending := pending }, false) := by
  cases r with
  | connectFail => exact absurd rfl h.2
  | answer code location body =>
    unfold CheckFileInfo.handleResponse CheckFileInfo.finishedCallback
    dsimp only
    rw [if_pos h.1]
    split
    · exact ⟨false, rfl⟩
    · exact ⟨c.pending, rfl⟩

/-- A request stays sent, its URI can be read back, and the continuation runs when the CheckFileInfo is completed. -/
theorem handleResponse_spec {env : Environment URI} {b : Brokers} {c : CheckFileInfo URI} {r : Response}
    (hsent : Sent c) (hc : ReadsBack env c.url)
    (hr : ∀ code location body u, r = .answer code location body → sanitizeURI env location = some u →
      ReadsBack env u) :
    (ReadsBack env (c.handleResponse env b r).1.url ∧ Sent (c.handleResponse env b r).1) ∧
      ((c.handleResponse env b r).2 = true → (c.handleResponse env b r).1.completed = true) ∧
      ((c.handleResponse env b r).2 = false → c.state = .Active → (c.handleResponse env b r).1.state = .Active) := by
  rcases handleResponse_cases env b c r with ⟨pending, h⟩ | ⟨code, location, body, u, limit, rfl, hu, h⟩ |
    ⟨pending, state, info, hstate, h⟩
  · rw [h]
    exact ⟨⟨hc, hsent⟩, nofun, fun _ hactive => hactive⟩
  · rw [h]
    exact ⟨⟨hr code location body u rfl hu, sent_start u limit⟩, nofun, fun _ _ => rfl⟩
  · rw [h]
    rcases hstate with rfl | rfl | ⟨rfl, hinfo⟩
    · exact ⟨⟨hc, nofun, nofun, nofun⟩, fun _ => rfl, nofun⟩
    · exact ⟨⟨hc, nofun, nofun, nofun⟩, fun _ => rfl, nofun⟩
    · exact ⟨⟨hc, nofun, nofun, fun _ => hinfo⟩, fun _ => rfl, nofun⟩

theorem Sent.completed {c : CheckFileInfo URI} (h : Sent c) (hactive : c.state ≠ .Active) : c.completed = true := by
  simp [CheckFileInfo.completed, h.1, hactive]

structure Vetted (env : Environment URI) (s : RequestVettingStation URI) : Prop where
  /-- Nothing is said before the WebSocket is there. -/
  idle : s.ws = false → s.outcomes = []
  /-- Every request was sent, and its URI can be read back. -/
  readable : ∀ c, s.checkFileInfo = some c → ReadsBack env c.url ∧ Sent c
  waits : s.ws = true → ∃ c, s.checkFileInfo = some c ∧ (c.state = .Active → s.outcomes = []) ∧
    (c.completed = true → s.outcomes.length = 1)
  passed : ∀ docKey, .handedOver docKey ∈ s.outcomes → s.checkFileInfo.any (·.state == .Pass) = true

theorem Vetted.oneOutcome {env : Environment URI} {s : RequestVettingStation URI} (h : Vetted env s) :
    OneOutcome s := by
  refine ⟨?_, h.passed⟩
  intro hws hdone
  obtain ⟨c, hc, -, hlen⟩ := h.waits hws
  rw [hc] at hdone
  exact hlen hdone

/-- The client is answered at the end of a request: what was said before is nothing. -/
theorem Vetted.of_answers {env : Environment URI} {passed : Bool} {s s' : RequestVettingStation URI}
    {c : CheckFileInfo URI} (h : Answers passed s s') (hc : s.checkFileInfo = some c) (hdone : c.completed = true)
    (hpass : passed = true → c.state = .Pass) (hread : ReadsBack env c.url ∧ Sent c) (hout : s.outcomes = []) :
    Vetted env s' := by
  obtain ⟨hws', hcfi', hout'⟩ := h
  rw [hc] at hcfi'
  have hactive : c.state ≠ .Active := by
    intro h
    simp [CheckFileInfo.completed, h] at hdone
  by_cases hws : s.ws = true
  · rw [if_pos hws, hout] at hout'
    obtain ⟨o, ho, hpassed⟩ := hout'
    rw [List.nil_append] at ho
    refine ⟨fun h => ?_, fun c' hc' => ?_,
      fun _ => ⟨c, hcfi', fun h => absurd h hactive, fun _ => by rw [ho]; rfl⟩, ?_⟩
    · rw [hws', hws] at h
      cases h
    · obtain rfl : c = c' := Option.some.inj (hcfi'.symm.trans hc')
      exact hread
    · intro docKey hmem
      rw [ho, List.mem_singleton] at hmem
      simp [hcfi', hpass (hpassed docKey hmem.symm)]
  · rw [if_neg hws, hout] at hout'
    refine ⟨fun _ => hout', fun c' hc' => ?_, fun h => absurd (hws'.symm.trans h) hws, ?_⟩
    · obtain rfl : c = c' := Option.some.inj (hcfi'.symm.trans hc')
      exact hread
    · intro docKey hmem
      rw [hout'] at hmem
      cases hmem

theorem Vetted.init {env : Environment URI} {s : RequestVettingStation URI} (h : IsInit s) : Vetted env s := by
  rw [h]
  exact ⟨fun _ => rfl, nofun, nofun, nofun⟩

/-! ### The steps -/

section Steps

variable {env : Environment URI} {s : RequestVettingStation URI}

theorem vetted_page (h : Vetted env s) (hws : s.ws = false) (hwopi : IsWopi env s.documentURI)
    (hread : ∀ u, sanitizeURI env s.documentURI = some u → ReadsBack env u) : Vetted env (s.handlePage env) := by
  obtain ⟨u, hu, hvalidate, hro⟩ := hwopi
  obtain ⟨ro, hro⟩ := Option.isSome_iff_exists.1 hro
  simp only [handlePage, hu, hro, hvalidate]
  refine ⟨h.idle, ?_, ?_, ?_⟩
  · intro c hc
    obtain rfl := Option.some.inj hc
    exact ⟨hread u hu, sent_start u _⟩
  · intro hws'
    have : s.ws = true := hws'
    rw [hws] at this
    cases this
  · intro docKey hmem
    have hmem : .handedOver docKey ∈ s.outcomes := hmem
    rw [h.idle hws] at hmem
    cases hmem

/-- The WebSocket has just arrived, and nothing was said so far. -/
theorem vetted_handleWopi (b : Brokers) {u : URI} (hws : s.ws = true) (hout : s.outcomes = [])
    (hc : ∀ c, s.checkFileInfo = some c → ReadsBack env c.url ∧ Sent c) (hu : ReadsBack env u) :
    (s.handleWopi env b u).2 = false ∧ Vetted env (s.handleWopi env b u).1 := by
  have hnothing : ∀ docKey, Outcome.handedOver docKey ∉ s.outcomes := by simp [hout]
  unfold handleWopi
  cases hcfi : s.checkFileInfo with
  | none =>
    -- the CheckFileInfo starts only now
    refine ⟨rfl, fun h => ?_, ?_, fun _ => ⟨_, rfl, fun _ => hout, nofun⟩,
      fun docKey hmem => absurd hmem (hnothing docKey)⟩
    · exact absurd (hws.symm.trans h) (by decide)
    · intro c hc
      obtain rfl := Option.some.inj hc
      exact ⟨hu, sent_start u _⟩
  | some c =>
    obtain ⟨hback, hsent⟩ := hc c hcfi
    have herror : c.state ≠ .Active → Vetted env s.sendUnauthorizedErrorAndShutdown := by
      intro hactive
      have hans : Answers false s s.sendUnauthorizedErrorAndShutdown := answers_error s _
      exact .of_answers hans hcfi (hsent.completed hactive) nofun ⟨hback, hsent⟩ hout
    cases hstate : c.state with
    | None => exact absurd hstate hsent.1
    | Timedout => exact absurd hstate hsent.2.1
    | Active =>
      dsimp only
      rw [hstate]
      refine ⟨rfl, fun _ => hout, hc, fun _ => ⟨c, hcfi, fun _ => hout, fun hdone => ?_⟩,
        fun docKey hmem => absurd hmem (hnothing docKey)⟩
      simp [CheckFileInfo.completed, hstate] at hdone
    | Unauthorized =>
      dsimp only
      rw [hstate]
      exact ⟨rfl, herror (by simp [hstate])⟩
    | Fail =>
      dsimp only
      rw [hstate]
      exact ⟨rfl, herror (by simp [hstate])⟩
    | Pass =>
      have hactive : c.state ≠ .Active := by simp [hstate]
      obtain ⟨hthrew, hans⟩ := answers_transferToDocBroker env b s hback
      dsimp only
      rw [hstate]
      dsimp only
      rw [if_pos (hsent.2.2 hstate)]
      exact ⟨hthrew, .of_answers hans hcfi (hsent.completed hactive) (fun _ => hstate)
        ⟨hback, hsent⟩ hout⟩

theorem handleRequest_wopi {documentURI : String} {u : URI} (b : Brokers) (hu : sanitizeURI env documentURI = some u)
    (hvalidate : env.validate u = .Wopi) (hro : (hasReadonlyPermission env (env.toString u)).isSome) :
    s.handleRequest env b documentURI = handleWopi env b { s with documentURI := documentURI, ws := true } u := by
  obtain ⟨ro, hro⟩ := Option.isSome_iff_exists.1 hro
  simp only [handleRequest, hu, hro, hvalidate]

theorem vetted_webSocket (h : Vetted env s) (hws : s.ws = false) (b : Brokers) {documentURI : String}
    (hwopi : IsWopi env documentURI) (hread : ∀ u, sanitizeURI env documentURI = some u → ReadsBack env u) :
    Vetted env (s.handleWebSocket env b documentURI) := by
  obtain ⟨u, hu, hvalidate, hro⟩ := hwopi
  have hvet := vetted_handleWopi (s := { s with documentURI := documentURI, ws := true }) b rfl (h.idle hws)
    h.readable (hread u hu)
  unfold handleWebSocket
  rw [handleRequest_wopi b hu hvalidate hro]
  generalize handleWopi env b _ u = r at hvet
  obtain ⟨t, threw⟩ := r
  obtain ⟨rfl, hvet⟩ := hvet
  exact hvet

/-- Only the CheckFileInfo changes, which stays active, or nothing was said so far. -/
theorem Vetted.of_request {c : CheckFileInfo URI} (h : Vetted env s) (hc : ReadsBack env c.url ∧ Sent c)
    (hwait : s.ws = true → c.state = .Active ∧ s.outcomes = []) :
    Vetted env { s with checkFileInfo := some c } := by
  have hout : s.outcomes = [] := by
    cases hws : s.ws with
    | false => exact h.idle hws
    | true => exact (hwait hws).2
  refine ⟨h.idle, ?_, fun hws => ⟨c, rfl, fun _ => hout, fun hdone => ?_⟩, ?_⟩
  · intro c' hc'
    obtain rfl := Option.some.inj hc'
    exact hc
  · simp [CheckFileInfo.completed, (hwait hws).1] at hdone
  · intro docKey hmem
    have hmem : .handedOver docKey ∈ s.outcomes := hmem
    rw [hout] at hmem
    cases hmem

theorem Vetted.outcomes_of_active {c : CheckFileInfo URI} (h : Vetted env s) (hcfi : s.checkFileInfo = some c)
    (hactive : s.ws = true → c.state = .Active) : s.outcomes = [] := by
  cases hws : s.ws with
  | false => exact h.idle hws
  | true =>
    obtain ⟨c', hc', hempty, -⟩ := h.waits hws
    obtain rfl : c = c' := Option.some.inj (hcfi.symm.trans hc')
    exact hempty (hactive hws)

theorem vetted_response (h : Vetted env s) (b : Brokers) (r : Response)
    (hr : ∀ code location body u, r = .answer code location body → sanitizeURI env location = some u →
      ReadsBack env u)
    (hwait : s.ws = false ∨ s.isActive = true ∨ GivesUp b r) : Vetted env (s.handleResponse env b r) := by
  unfold handleResponse
  cases hcfi : s.checkFileInfo with
  | none => exact h
  | some c =>
    obtain ⟨hback, hsent⟩ := h.readable c hcfi
    obtain ⟨hread', hdone, hstays⟩ := handleResponse_spec (b := b) hsent hback hr
    by_cases hgives : GivesUp b r
    · obtain ⟨pending, hp⟩ := @handleResponse_of_givesUp _ env _ _ hgives c
      dsimp only
      rw [hp] at hread' ⊢
      -- the same request, whose response is done
      refine ⟨h.idle, ?_, fun hws => ?_, fun docKey hmem => ?_⟩
      · intro c' hc'
        obtain rfl := Option.some.inj hc'
        exact hread'
      · obtain ⟨c', hc', hempty, hlen⟩ := h.waits hws
        obtain rfl : c = c' := Option.some.inj (hcfi.symm.trans hc')
        exact ⟨_, rfl, hempty, hlen⟩
      · have hpass := h.passed docKey hmem
        rw [hcfi] at hpass
        exact hpass
    have hactive : s.ws = true → c.state = .Active := by
      intro hws
      rcases hwait with hno | hactive | hg
      · rw [hws] at hno
        cases hno
      · simpa [isActive, hcfi] using hactive
      · exact absurd hg hgives
    have hout := h.outcomes_of_active hcfi hactive
    dsimp only
    generalize c.handleResponse env b r = p at hread' hdone hstays
    obtain ⟨c', finished⟩ := p
    dsimp only at hread' hdone hstays ⊢
    cases finished with
    | false => exact h.of_request hread' fun hws => ⟨hstays rfl (hactive hws), hout⟩
    | true =>
      set t : RequestVettingStation URI := { s with checkFileInfo := some c' } with ht
      rw [if_pos rfl]
      unfold checkFileInfoFinished
      split <;> rename_i hpass
      · have hans := (answers_transferToDocBroker env b t hread'.1).2
        exact .of_answers hans rfl (hdone rfl) (fun _ => hpass.1) hread' hout
      · have hans : Answers false t t.sendUnauthorizedErrorAndShutdown := answers_error t _
        exact .of_answers hans rfl (hdone rfl) nofun hread' hout

/-- Nothing that the invariant reads changes. -/
theorem Vetted.congr {s' : RequestVettingStation URI} (h : Vetted env s) (hws : s'.ws = s.ws)
    (hcfi : s'.checkFileInfo = s.checkFileInfo) (hout : s'.outcomes = s.outcomes) : Vetted env s' where
  idle := by rw [hws, hout]; exact h.idle
  readable := by rw [hcfi]; exact h.readable
  waits := by rw [hws, hcfi, hout]; exact h.waits
  passed := by rw [hcfi, hout]; exact h.passed

theorem vetted_presets (h : Vetted env s) {success : Bool} (hok : success = true ∨ s.ws = false ∨ s.moved = true) :
    Vetted env (s.presetsInstalled success) := by
  unfold presetsInstalled
  split
  · exact h
  · rename_i hmoved
    dsimp only
    split
    · exact h.congr rfl rfl rfl
    · rename_i hfail
      have hws : s.ws = false := (hok.resolve_left (by simpa using hfail)).resolve_right hmoved
      rw [sendErrorAndShutdown_eq]
      exact h.congr rfl rfl (by simp [hws])

theorem vetted_move (h : Vetted env s) : Vetted env (s.move env) := by
  unfold move
  cases s.transfer with
  | none => exact h
  | some t => exact h.congr rfl rfl rfl

theorem vetted_step {s' : RequestVettingStation URI} {e : Event} (h : Vetted env s) (hok : Undisturbed env s e)
    (hstep : s.step env e = some s') : Vetted env s' := by
  obtain ⟨hwopi, hok⟩ := hok
  cases e with
  | page =>
    obtain ⟨hnew, hs'⟩ := Option.ite_none_right_eq_some.1 hstep
    obtain rfl := Option.some.inj hs'
    exact vetted_page h hnew.1 hwopi hok
  | webSocket documentURI b =>
    obtain ⟨hws, hs'⟩ := Option.ite_none_left_eq_some.1 hstep
    obtain rfl := Option.some.inj hs'
    exact vetted_webSocket h (by simpa using hws) b hwopi hok
  | response r b =>
    obtain ⟨-, hs'⟩ := Option.ite_none_right_eq_some.1 hstep
    obtain rfl := Option.some.inj hs'
    exact vetted_response h b r hok.1 hok.2
  | presets success =>
    obtain ⟨-, hs'⟩ := Option.ite_none_right_eq_some.1 hstep
    obtain rfl := Option.some.inj hs'
    exact vetted_presets h hok
  | move =>
    obtain ⟨-, hs'⟩ := Option.ite_none_right_eq_some.1 hstep
    obtain rfl := Option.some.inj hs'
    exact vetted_move h

end Steps

/-- Every broker is found, and none is unloading. -/
def available : Brokers where
  error _ := none
  isUnloadingUnrecoverably _ := false

def document : String := "https://host/file?access_token=t&permission=edit"

/-- A CheckFileInfo that passes, with shared settings to install. -/
def passing : Response := .answer 200 "" (some ⟨some "file.odt", "https://host/settings"⟩)

instance (env : Environment URI) (documentURI : String) : Decidable (IsWopi env documentURI) :=
  match h : sanitizeURI env documentURI with
  | none => .isFalse (by rintro ⟨u, hu, -⟩; rw [h] at hu; cases hu)
  | some u =>
    decidable_of_iff (env.validate u = .Wopi ∧ (hasReadonlyPermission env (env.toString u)).isSome)
      ⟨fun h' => ⟨u, h, h'⟩, by rintro ⟨u', hu, h'⟩; rw [h] at hu; cases hu; exact h'⟩

instance (env : Environment URI) (s : RequestVettingStation URI) (e : Event) : Decidable (Wopi env s e) :=
  match e with
  | .page => inferInstanceAs (Decidable (IsWopi env s.documentURI))
  | .webSocket documentURI _ => inferInstanceAs (Decidable (IsWopi env documentURI))
  | .response _ _ | .presets _ | .move => .isTrue trivial

/-- Two answers for one client. -/
def answeredTwice (s : RequestVettingStation URI) : Bool :=
  s.ws && s.checkFileInfo.any (·.completed) && s.outcomes.length == 2

theorem not_oneOutcome {s : RequestVettingStation URI} (h : s.answeredTwice = true) : ¬ OneOutcome s := by
  rintro ⟨hlen, -⟩
  unfold answeredTwice at h
  simp only [Bool.and_eq_true, beq_iff_eq] at h
  have htwo := h.2
  rw [hlen h.1.1 h.1.2] at htwo
  cases htwo

end RequestVettingStation

end CollaboraOnline
