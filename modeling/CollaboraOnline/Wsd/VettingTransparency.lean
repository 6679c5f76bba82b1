import CollaboraOnline.Wsd.VettingOutcome

/-!
# Vetting ahead of the WebSocket

The session of a WebSocket whose document was vetted ahead, because the page was served before, and without.  It does
not matter when the WebSocket arrives: stations that differ in what was installed and said so far create the same
session (`Alike`), and an answer of the storage can be taken before or after the WebSocket (`alike_arrival`).
-/

namespace CollaboraOnline

namespace RequestVettingStation

variable {URI : Type}

/-- An answer of the storage, as long as the CheckFileInfo is not completed. -/
def answer (env : Environment URI) (b : Brokers) (s : RequestVettingStation URI) (r : Response) :
    RequestVettingStation URI :=
  if s.isActive then s.handleResponse env b r else s

def answers (env : Environment URI) (b : Brokers) (s : RequestVettingStation URI) (rs : List Response) :
    RequestVettingStation URI :=
  rs.foldl (answer env b) s

end RequestVettingStation

namespace ClientRequestDispatcher

open RequestVettingStation

variable {URI : Type}

def answerStation (env : Environment URI) (b : Brokers) (requestKey : String) (rs : List Response)
    (stations : Stations URI) : Stations URI :=
  stations.map fun (p : String × RequestVettingStation URI) =>
    if p.1 = requestKey then (p.1, p.2.answers env b rs) else p

/-- The session of a WebSocket that arrives now; `after` are the answers of the storage from here on. -/
def webSocketSession (env : Environment URI) (b : Brokers) (stations : Stations URI) (details : RequestDetails)
    (after : List Response) : Option (NewClientSession URI) :=
  let s := (takeStation env details stations).1
  (((s.handleWebSocket env b details.documentURI).answers env b after).move env).session

/-- The page is served, the storage answers `before`, and only then the WebSocket arrives. -/
def sessionAfterPage (env : Environment URI) (b : Brokers) (stations : Stations URI) (page : ResourceAccessDetails)
    (before : List Response) (details : RequestDetails) (after : List Response) : Option (NewClientSession URI) :=
  match page.requestKey env with
  | none => none
  | some requestKey =>
    let stations := answerStation env b requestKey before (launchAsyncCheckFileInfo env page stations)
    webSocketSession env b stations details after

end ClientRequestDispatcher

namespace RequestVettingStation

variable {URI : Type} {env : Environment URI} {b : Brokers}

/-! ### Stations that create the same session -/

structure Alike (s t : RequestVettingStation URI) : Prop where
  ws : s.ws = t.ws
  checkFileInfo : s.checkFileInfo = t.checkFileInfo
  transfer : s.transfer = t.transfer
  session : s.session = t.session

theorem Alike.refl (s : RequestVettingStation URI) : Alike s s := ⟨rfl, rfl, rfl, rfl⟩

theorem Alike.trans {s t u : RequestVettingStation URI} (h : Alike s t) (h' : Alike t u) : Alike s u :=
  ⟨h.ws.trans h'.ws, h.checkFileInfo.trans h'.checkFileInfo, h.transfer.trans h'.transfer, h.session.trans h'.session⟩

theorem Alike.symm {s t : RequestVettingStation URI} (h : Alike s t) : Alike t s :=
  ⟨h.ws.symm, h.checkFileInfo.symm, h.transfer.symm, h.session.symm⟩

theorem Alike.moved {s t : RequestVettingStation URI} (h : Alike s t) :
    (s.move env).session = (t.move env).session := by
  unfold move
  rw [h.transfer]
  cases t.transfer with
  | none => exact h.session
  | some _ => rfl

theorem alike_sendError (s : RequestVettingStation URI) (msg : String) : Alike (s.sendErrorAndShutdown msg) s := by
  rw [sendErrorAndShutdown_eq]
  exact ⟨rfl, rfl, rfl, rfl⟩

theorem alike_installPresets (s : RequestVettingStation URI) : Alike s.launchInstallPresets s := by
  unfold launchInstallPresets
  split <;> exact ⟨rfl, rfl, rfl, rfl⟩

theorem Alike.createClientSession {s t : RequestVettingStation URI} (h : Alike s t) (docKey url : String)
    (uriPublic : URI) :
      Alike (s.createClientSession b docKey url uriPublic) (t.createClientSession b docKey url uriPublic) := by
  unfold RequestVettingStation.createClientSession
  split
  · exact ((alike_sendError s _).trans h).trans (alike_sendError t _).symm
  · exact ⟨h.ws, h.checkFileInfo, rfl, h.session⟩

variable (env) in
theorem Alike.transferToDocBroker {s t : RequestVettingStation URI} (h : Alike s t) (url : String) :
    (s.transferToDocBroker env b url).2 = (t.transferToDocBroker env b url).2 ∧
      Alike (s.transferToDocBroker env b url).1 (t.transferToDocBroker env b url).1 := by
  unfold RequestVettingStation.transferToDocBroker
  cases sanitizeURI env url with
  | none => exact ⟨rfl, h⟩
  | some u =>
    dsimp only
    cases b.error (getDocKey env u) with
    | some error => exact ⟨rfl, ((alike_sendError s _).trans h).trans (alike_sendError t _).symm⟩
    | none =>
      refine ⟨rfl, ?_⟩
      have hinstall : Alike s.launchInstallPresets t.launchInstallPresets :=
        ((alike_installPresets s).trans h).trans (alike_installPresets t).symm
      dsimp only
      rw [hinstall.ws]
      split
      · exact hinstall.createClientSession _ _ _
      · exact hinstall

/-- Without a WebSocket nothing is handed over. -/
theorem alike_transferToDocBroker {s : RequestVettingStation URI} (hws : s.ws = false) (url : String) :
    Alike (s.transferToDocBroker env b url).1 s := by
  unfold RequestVettingStation.transferToDocBroker
  cases sanitizeURI env url with
  | none => exact .refl s
  | some u =>
    dsimp only
    cases b.error (getDocKey env u) with
    | some error => exact alike_sendError s _
    | none =>
      have hinstall := alike_installPresets s
      dsimp only
      rw [hinstall.ws, hws]
      exact hinstall

variable (env) in
theorem Alike.handleResponse {s t : RequestVettingStation URI} (h : Alike s t) (r : Response) :
    Alike (s.handleResponse env b r) (t.handleResponse env b r) := by
  unfold RequestVettingStation.handleResponse
  rw [h.checkFileInfo]
  cases t.checkFileInfo with
  | none => exact h
  | some c =>
    dsimp only
    generalize c.handleResponse env b r = p
    obtain ⟨c', finished⟩ := p
    have hnew : Alike { s with checkFileInfo := some c' } { t with checkFileInfo := some c' } :=
      ⟨h.ws, rfl, h.transfer, h.session⟩
    cases finished with
    | false => exact hnew
    | true =>
      dsimp only
      rw [if_pos rfl, if_pos rfl]
      unfold checkFileInfoFinished
      split
      · exact (hnew.transferToDocBroker env _).2
      · exact ((alike_sendError _ _).trans hnew).trans (alike_sendError _ _).symm

variable (env) in
theorem Alike.answer {s t : RequestVettingStation URI} (h : Alike s t) (r : Response) :
    Alike (s.answer env b r) (t.answer env b r) := by
  unfold RequestVettingStation.answer isActive
  rw [h.checkFileInfo]
  split
  · exact h.handleResponse env r
  · exact h

variable (env) in
theorem Alike.answers {s t : RequestVettingStation URI} (h : Alike s t) (rs : List Response) :
    Alike (s.answers env b rs) (t.answers env b rs) := by
  induction rs generalizing s t with
  | nil => exact h
  | cons r rs ih => exact ih (h.answer env r)

/-! ### The WebSocket arrives -/

/-- A request for a WOPI document arrives at a station whose CheckFileInfo was sent. -/
theorem handleWebSocket_eq {s : RequestVettingStation URI} {documentURI : String} (hwopi : IsWopi env documentURI)
    {c : CheckFileInfo URI} (hc : s.checkFileInfo = some c) (hsent : Sent c) :
    Alike (s.handleWebSocket env b documentURI)
      (if c.state = .Pass then (transferToDocBroker env b { s with ws := true } (env.toString c.url)).1
        else { s with ws := true }) := by
  obtain ⟨u, hu, hvalidate, hro⟩ := hwopi
  unfold handleWebSocket
  rw [handleRequest_wopi b hu hvalidate hro]
  set t : RequestVettingStation URI := { s with documentURI := documentURI, ws := true }
  have hts : Alike t { s with ws := true } := ⟨rfl, rfl, rfl, rfl⟩
  have htc : t.checkFileInfo = some c := hc
  have hwopi : t.handleWopi env b u = match c.state with
      | .Active => (t, false)
      | .Pass => t.transferToDocBroker env b (env.toString c.url)
      | _ => (t.sendUnauthorizedErrorAndShutdown, false) := by
    unfold handleWopi
    rw [htc]
    cases hstate : c.state with
    | None => exact absurd hstate hsent.1
    | Timedout => exact absurd hstate hsent.2.1
    | Pass =>
      dsimp only
      rw [hstate]
      exact if_pos (hsent.2.2 hstate)
    | Active | Unauthorized | Fail =>
      dsimp only
      rw [hstate]
  rw [hwopi]
  have herror : Alike t.sendUnauthorizedErrorAndShutdown { s with ws := true } := (alike_sendError t _).trans hts
  cases hstate : c.state with
  | None => exact absurd hstate hsent.1
  | Timedout => exact absurd hstate hsent.2.1
  | Active => exact hts
  | Unauthorized => exact herror
  | Fail => exact herror
  | Pass =>
    rw [if_pos rfl]
    have htransfer := (hts.transferToDocBroker env (b := b) (env.toString c.url)).2
    dsimp only
    split
    · exact (alike_sendError _ _).trans htransfer
    · exact htransfer

theorem transferToDocBroker_checkFileInfo (s : RequestVettingStation URI) (url : String) :
    (s.transferToDocBroker env b url).1.checkFileInfo = s.checkFileInfo := by
  cases h : sanitizeURI env url with
  | none => simp [RequestVettingStation.transferToDocBroker, h]
  | some u => exact (answers_transferToDocBroker env b s (by simp [h])).2.2.1

/-- The CheckFileInfo after an answer. -/
def vetted (env : Environment URI) (b : Brokers) (c : CheckFileInfo URI) (r : Response) : CheckFileInfo URI :=
  if c.state = .Active then (c.handleResponse env b r).1 else c

theorem Sent.vetted {c : CheckFileInfo URI} (h : Sent c) (r : Response) : Sent (vetted env b c r) := by
  unfold RequestVettingStation.vetted
  split
  · rcases handleResponse_cases env b c r with ⟨pending, hr⟩ | ⟨code, location, body, u, limit, -, -, hr⟩ |
      ⟨pending, state, info, hstate, hr⟩
    · rw [hr]
      exact h
    · rw [hr]
      exact sent_start u limit
    · rw [hr]
      rcases hstate with rfl | rfl | ⟨rfl, hinfo⟩
      · exact ⟨nofun, nofun, nofun⟩
      · exact ⟨nofun, nofun, nofun⟩
      · exact ⟨nofun, nofun, fun _ => hinfo⟩
  · exact h

theorem answer_of_not_active {s : RequestVettingStation URI} {c : CheckFileInfo URI} (hc : s.checkFileInfo = some c)
    (hactive : c.state ≠ .Active) (r : Response) : s.answer env b r = s := by
  have hno : ¬ s.isActive = true := by simpa [isActive, hc] using hactive
  rw [answer, if_neg hno]

variable (env b) in
/-- An answer that the CheckFileInfo takes. -/
theorem answer_eq {s : RequestVettingStation URI} {c : CheckFileInfo URI} (hc : s.checkFileInfo = some c)
    (hsent : Sent c) (hactive : c.state = .Active) (r : Response) :
    Alike (s.answer env b r)
      (if (vetted env b c r).state = .Pass then
          (transferToDocBroker env b { s with checkFileInfo := some (vetted env b c r) }
            (env.toString (vetted env b c r).url)).1
        else { s with checkFileInfo := some (vetted env b c r) }) := by
  have hsent' : Sent (vetted env b c r) := hsent.vetted r
  have hvetted : vetted env b c r = (c.handleResponse env b r).1 := if_pos hactive
  have hyes : s.isActive = true := by simpa [isActive, hc] using hactive
  rw [answer, if_pos hyes, RequestVettingStation.handleResponse]
  simp only [hc]
  have hcases := handleResponse_cases env b c r
  rw [hvetted] at hsent' ⊢
  generalize c.handleResponse env b r = p at hsent' hcases
  obtain ⟨c', finished⟩ := p
  dsimp only at hsent' ⊢
  by_cases hpass : c'.state = .Pass
  · have hfinished : finished = true := by
      rcases hcases with ⟨pending, h⟩ | ⟨-, -, -, u, limit, -, -, h⟩ | ⟨pending, state, info, -, h⟩
      · obtain ⟨rfl, -⟩ := Prod.mk.inj h
        cases hactive.symm.trans hpass
      · obtain ⟨rfl, -⟩ := Prod.mk.inj h
        cases hpass
      · exact (Prod.mk.inj h).2
    rw [hfinished, if_pos rfl, if_pos hpass, checkFileInfoFinished, if_pos ⟨hpass, hsent'.2.2 hpass⟩]
    exact .refl _
  · rw [if_neg hpass]
    split
    · rw [checkFileInfoFinished, if_neg fun h => hpass h.1]
      exact alike_sendError _ _
    · exact .refl _

variable (env b) in
/-- Without a WebSocket only the CheckFileInfo changes. -/
theorem alike_answer {s : RequestVettingStation URI} {c : CheckFileInfo URI} (hws : s.ws = false)
    (hc : s.checkFileInfo = some c) (hsent : Sent c) (r : Response) :
    Alike (s.answer env b r) { s with checkFileInfo := some (vetted env b c r) } := by
  by_cases hactive : c.state = .Active
  · refine (answer_eq env b hc hsent hactive r).trans ?_
    split
    · exact alike_transferToDocBroker (s := { s with checkFileInfo := some (vetted env b c r) }) hws _
    · exact .refl _
  · rw [answer_of_not_active hc hactive, vetted, if_neg hactive]
    exact ⟨rfl, hc, rfl, rfl⟩

/-- It does not matter whether an answer comes before the WebSocket or after. -/
theorem alike_arrival {s : RequestVettingStation URI} {documentURI : String} (hwopi : IsWopi env documentURI)
    (hws : s.ws = false) {c : CheckFileInfo URI} (hc : s.checkFileInfo = some c) (hsent : Sent c) (r : Response) :
    Alike ((s.answer env b r).handleWebSocket env b documentURI)
      ((s.handleWebSocket env b documentURI).answer env b r) := by
  have hright := handleWebSocket_eq (b := b) hwopi hc hsent
  by_cases hactive : c.state = .Active
  case neg =>
    -- nobody listens
    have hkept : (s.handleWebSocket env b documentURI).checkFileInfo = some c := by
      rw [hright.checkFileInfo]
      split
      · rw [transferToDocBroker_checkFileInfo]
        exact hc
      · exact hc
    rw [answer_of_not_active hc hactive, answer_of_not_active hkept hactive]
    exact .refl _
  have hsent' : Sent (vetted env b c r) := hsent.vetted r
  have hs₁ := alike_answer env b hws hc hsent r
  rw [if_neg (by simp [hactive])] at hright
  have hlast := hright.answer env (b := b) r
  have hsecond := answer_eq env b (s := { s with ws := true }) hc hsent hactive r
  generalize vetted env b c r = c' at hsent' hs₁ hsecond
  refine ((handleWebSocket_eq hwopi hs₁.checkFileInfo hsent').trans ?_).trans (hlast.trans hsecond).symm
  have hbase : Alike { s.answer env b r with ws := true } { s with ws := true, checkFileInfo := some c' } :=
    ⟨rfl, hs₁.checkFileInfo, hs₁.transfer, hs₁.session⟩
  split
  · exact (hbase.transferToDocBroker env _).2
  · exact hbase

/-- Nor do all the answers that come before. -/
theorem alike_arrival_answers {s : RequestVettingStation URI} {documentURI : String} (hwopi : IsWopi env documentURI)
    (hws : s.ws = false) {c : CheckFileInfo URI} (hc : s.checkFileInfo = some c) (hsent : Sent c)
    (rs : List Response) : Alike ((s.answers env b rs).handleWebSocket env b documentURI)
      ((s.handleWebSocket env b documentURI).answers env b rs) := by
  induction rs generalizing s c with
  | nil => exact .refl _
  | cons r rs ih =>
    have hone := alike_arrival (b := b) hwopi hws hc hsent r
    have hs₁ := alike_answer env b hws hc hsent r
    exact (ih (hs₁.ws.trans hws) hs₁.checkFileInfo (hsent.vetted r)).trans (hone.answers env rs)

/-! ### The session -/

/-- The URL that a CheckFileInfo for `u` ends at. -/
def vettedURL (env : Environment URI) (b : Brokers) (u : URI) (rs : List Response) : URI :=
  (rs.foldl (vetted env b) (CheckFileInfo.start u CheckFileInfo.HTTP_REDIRECTION_LIMIT)).url

/-- The session of a vetted URL, read back from its text. -/
def IsSessionOf (env : Environment URI) (url : URI) (session : NewClientSession URI) : Prop :=
  sanitizeURI env (env.toString url) = some session.uriPublic ∧ session.docKey = getDocKey env session.uriPublic ∧
    hasReadonlyPermission env (env.toString session.uriPublic) = some session.isReadOnly

/-- What waits in the `DocumentBroker`'s poll is what the CheckFileInfo ended at. -/
structure TransfersVetted (env : Environment URI) (s : RequestVettingStation URI) (c : CheckFileInfo URI) : Prop where
  checkFileInfo : s.checkFileInfo = some c
  sent : Sent c
  session : s.session = none
  transfer : ∀ t, s.transfer = some t → c.state = .Pass ∧ sanitizeURI env (env.toString c.url) = some t.uriPublic ∧
    t.docKey = getDocKey env t.uriPublic

theorem TransfersVetted.congr {s t : RequestVettingStation URI} {c : CheckFileInfo URI} (h : TransfersVetted env t c)
    (hst : Alike s t) : TransfersVetted env s c where
  checkFileInfo := hst.checkFileInfo.trans h.checkFileInfo
  sent := h.sent
  session := hst.session.trans h.session
  transfer := by rw [hst.transfer]; exact h.transfer

variable (env) in
theorem transferToDocBroker_transfer {s : RequestVettingStation URI} (hnone : s.transfer = none) (url : String) :
    (s.transferToDocBroker env b url).1.session = s.session ∧
      ∀ t, (s.transferToDocBroker env b url).1.transfer = some t →
        sanitizeURI env url = some t.uriPublic ∧ t.docKey = getDocKey env t.uriPublic := by
  unfold RequestVettingStation.transferToDocBroker
  have hstill : ∀ s' : RequestVettingStation URI, Alike s' s → s'.session = s.session ∧ ∀ t, s'.transfer = some t →
      sanitizeURI env url = some t.uriPublic ∧ t.docKey = getDocKey env t.uriPublic := by
    intro s' h
    refine ⟨h.session, fun t ht => ?_⟩
    rw [h.transfer, hnone] at ht
    cases ht
  cases hu : sanitizeURI env url with
  | none =>
    rw [hu] at hstill
    exact hstill s (.refl s)
  | some u =>
    rw [hu] at hstill
    dsimp only
    cases b.error (getDocKey env u) with
    | some error => exact hstill _ (alike_sendError s error)
    | none =>
      have hinstall := alike_installPresets s
      dsimp only
      split
      · unfold RequestVettingStation.createClientSession
        split
        · exact hstill _ ((alike_sendError _ _).trans hinstall)
        · refine ⟨hinstall.session, fun t ht => ?_⟩
          obtain rfl := Option.some.inj ht
          exact ⟨rfl, rfl⟩
      · exact hstill _ hinstall

theorem TransfersVetted.answer {s : RequestVettingStation URI} {c : CheckFileInfo URI} (h : TransfersVetted env s c)
    (r : Response) : TransfersVetted env (s.answer env b r) (vetted env b c r) := by
  by_cases hactive : c.state = .Active
  · have hsent : Sent (vetted env b c r) := h.sent.vetted r
    refine .congr ?_ (answer_eq env b h.checkFileInfo h.sent hactive r)
    generalize vetted env b c r = c' at hsent
    -- nothing can be waiting while the request is active
    have hnone : s.transfer = none := by
      cases ht : s.transfer with
      | none => rfl
      | some t => cases hactive.symm.trans (h.transfer t ht).1
    by_cases hpass : c'.state = .Pass
    · rw [if_pos hpass]
      obtain ⟨hsession, htransfer⟩ := transferToDocBroker_transfer env (b := b)
        (s := { s with checkFileInfo := some c' }) hnone (env.toString c'.url)
      exact ⟨transferToDocBroker_checkFileInfo _ _, hsent, hsession.trans h.session,
        fun t ht => ⟨hpass, htransfer t ht⟩⟩
    · rw [if_neg hpass]
      refine ⟨rfl, hsent, h.session, fun t ht => ?_⟩
      have ht : s.transfer = some t := ht
      rw [hnone] at ht
      cases ht
  · rw [answer_of_not_active h.checkFileInfo hactive, vetted, if_neg hactive]
    exact h

theorem TransfersVetted.answers {s : RequestVettingStation URI} {c : CheckFileInfo URI} (h : TransfersVetted env s c)
    (rs : List Response) : TransfersVetted env (s.answers env b rs) (rs.foldl (vetted env b) c) := by
  induction rs generalizing s c with
  | nil => exact h
  | cons r rs ih => exact ih (h.answer r)

theorem TransfersVetted.isSessionOf {s : RequestVettingStation URI} {c : CheckFileInfo URI}
    (h : TransfersVetted env s c)
    {session : NewClientSession URI} (hs : (s.move env).session = some session) : IsSessionOf env c.url session := by
  unfold move at hs
  cases ht : s.transfer with
  | none =>
    rw [ht] at hs
    rw [h.session] at hs
    cases hs
  | some t =>
    obtain ⟨-, huri, hkey⟩ := h.transfer t ht
    rw [ht] at hs
    obtain ⟨ro, hro, rfl⟩ := Option.map_eq_some_iff.1 hs
    exact ⟨huri, hkey, hro⟩

theorem url_vetted_of_not_redirected {r : Response}
    (h : ∀ code location body, r = .answer code location body → CheckFileInfo.isRedirect code = false)
    (c : CheckFileInfo URI) : (vetted env b c r).url = c.url := by
  unfold vetted
  split
  · cases r with
    | connectFail => rfl
    | answer code location body =>
      unfold CheckFileInfo.handleResponse CheckFileInfo.finishedCallback
      simp only [h code location body rfl, Bool.false_and, Bool.false_eq_true, if_false]
      split_ifs
      · rfl
      · rfl
      · rfl
      · cases CheckFileInfo.parseResponseAndValidate body with
        | none => rfl
        | some info => rfl
      · rfl
  · rfl

/-- A storage that does not redirect leaves the URL as it is. -/
theorem vettedURL_of_not_redirected {rs : List Response}
    (h : ∀ code location body, .answer code location body ∈ rs → CheckFileInfo.isRedirect code = false) (u : URI) :
    vettedURL env b u rs = u := by
  have hfold : ∀ (l : List Response) (c : CheckFileInfo URI), (∀ r ∈ l, r ∈ rs) →
      (l.foldl (vetted env b) c).url = c.url := by
    intro l
    induction l with
    | nil => exact fun _ _ => rfl
    | cons r l ih =>
      intro c hl
      have hr : r ∈ rs := hl r List.mem_cons_self
      rw [List.foldl_cons, ih _ fun r hr => hl r (List.mem_cons_of_mem _ hr)]
      refine url_vetted_of_not_redirected (fun code location body hanswer => h code location body ?_) c
      rwa [← hanswer]
  exact hfold rs _ fun _ hr => hr

end RequestVettingStation

namespace ClientRequestDispatcher

open RequestVettingStation

variable {URI : Type} {env : Environment URI} {b : Brokers}

/-! ### The stations -/

theorem getRequestKey_ne_empty {wopiSrc accessToken requestKey : String}
    (h : getRequestKey env wopiSrc accessToken = some requestKey) : requestKey ≠ "" := by
  unfold getRequestKey at h
  cases hd : env.decode wopiSrc with
  | none => simp [hd] at h
  | some decoded =>
    cases hu : sanitizeURI env decoded with
    | none => simp [hd, hu] at h
    | some u =>
      simp only [hd, hu, Option.bind_eq_bind, Option.bind_some, Option.some.injEq] at h
      simp [← h]

theorem lookup_of_new {stations : Stations URI} {requestKey : String} (hnew : ∀ p ∈ stations, p.1 ≠ requestKey) :
    stations.lookup requestKey = none := by
  rw [List.lookup_eq_none_iff]
  intro p hp
  simpa using fun h => hnew p hp h.symm

/-- A WebSocket whose document was not vetted gets a station of its own. -/
theorem takeStation_of_new {stations : Stations URI} {details : RequestDetails} {requestKey : String}
    (hkey : details.requestKey env = some requestKey) (hnew : ∀ p ∈ stations, p.1 ≠ requestKey) :
    (takeStation env details stations).1 = { documentURI := details.documentURI } := by
  unfold takeStation
  rw [hkey]
  by_cases hempty : requestKey = ""
  · rw [hempty]
    rfl
  · rw [Option.filter_some, if_pos (by simpa using hempty)]
    simp only [lookup_of_new hnew]

/-- The station of the page, after the answers that came before the WebSocket. -/
theorem takeStation_of_page {stations : Stations URI} {details : RequestDetails} {page : ResourceAccessDetails}
    {requestKey documentURI : String} (hpage : page.requestKey env = some requestKey)
    (hdetails : details.requestKey env = some requestKey) (hdoc : page.documentURI env = some documentURI)
    (hnew : ∀ p ∈ stations, p.1 ≠ requestKey) (hroom : stations.length < RvsHighWatermark) (before : List Response) :
    (takeStation env details
        (answerStation env b requestKey before (launchAsyncCheckFileInfo env page stations))).1 =
      answers env b (handlePage env { documentURI := documentURI }) before := by
  have hnone : (stations.any fun p => p.1 == requestKey) = false := by
    rw [List.any_eq_false]
    intro p hp
    simpa using hnew p hp
  have hlaunch : launchAsyncCheckFileInfo env page stations =
      stations ++ [(requestKey, handlePage env { documentURI := documentURI })] := by
    unfold launchAsyncCheckFileInfo
    rw [hpage, hdoc]
    simp only [hnone, Bool.false_eq_true, if_false, if_neg (Nat.not_le.2 hroom)]
  have hfilter : (details.requestKey env).filter (· ≠ "") = some requestKey := by
    rw [hdetails, Option.filter_some, if_pos (by simpa using getRequestKey_ne_empty hpage)]
  have hlookup : (answerStation env b requestKey before
      (stations ++ [(requestKey, handlePage env { documentURI := documentURI })])).lookup requestKey =
      some (answers env b (handlePage env { documentURI := documentURI }) before) := by
    have hothers : answerStation env b requestKey before stations = stations := by
      unfold answerStation
      rw [List.map_congr_left fun p hp => if_neg (hnew p hp), List.map_id']
    unfold answerStation at hothers ⊢
    rw [List.map_append, hothers, List.lookup_append, lookup_of_new hnew]
    simp
  unfold takeStation
  rw [hfilter, hlaunch]
  simp only [hlookup]

/-! ### Transparency -/

theorem transfersVetted_start {s : RequestVettingStation URI} {u : URI}
    (hc : s.checkFileInfo = some (CheckFileInfo.start u CheckFileInfo.HTTP_REDIRECTION_LIMIT))
    (ht : s.transfer = none) (hs : s.session = none) :
    TransfersVetted env s (CheckFileInfo.start u CheckFileInfo.HTTP_REDIRECTION_LIMIT) where
  checkFileInfo := hc
  sent := sent_start u _
  session := hs
  transfer t h := by rw [ht] at h; cases h

/-- The station of a document that was not vetted ahead. -/
theorem handleWebSocket_new {documentURI : String} {u : URI} (hu : sanitizeURI env documentURI = some u)
    (hwopi : IsWopi env documentURI) :
    handleWebSocket env b { documentURI := documentURI } documentURI =
      { documentURI := documentURI, ws := true,
        checkFileInfo := some (CheckFileInfo.start u CheckFileInfo.HTTP_REDIRECTION_LIMIT) } := by
  obtain ⟨u', hu', hvalidate, hro⟩ := hwopi
  obtain rfl : u = u' := Option.some.inj (hu.symm.trans hu')
  unfold handleWebSocket
  rw [handleRequest_wopi b hu hvalidate hro]
  rfl

theorem handlePage_new {documentURI : String} {u : URI} (hu : sanitizeURI env documentURI = some u)
    (hwopi : IsWopi env documentURI) :
    handlePage env { documentURI := documentURI } =
      { documentURI := documentURI,
        checkFileInfo := some (CheckFileInfo.start u CheckFileInfo.HTTP_REDIRECTION_LIMIT) } := by
  obtain ⟨u', hu', hvalidate, hro⟩ := hwopi
  obtain rfl : u = u' := Option.some.inj (hu.symm.trans hu')
  obtain ⟨ro, hro⟩ := Option.isSome_iff_exists.1 hro
  simp only [handlePage, hu, hro, hvalidate]

/-- It does not matter when the WebSocket arrives, and, for a page that asks for the same URI, not whether there was a
page; the session is that of the URL the storage ended at, which is the WebSocket's own unless the storage
redirects. -/
theorem session_transparent {stations : Stations URI} {page : ResourceAccessDetails} {details : RequestDetails}
    {requestKey documentURI : String} {u : URI} (hpage : page.requestKey env = some requestKey)
    (hdetails : details.requestKey env = some requestKey) (hdoc : page.documentURI env = some documentURI)
    (hwopi : IsWopi env documentURI) (hwopi' : IsWopi env details.documentURI)
    (hu : sanitizeURI env details.documentURI = some u) (hnew : ∀ p ∈ stations, p.1 ≠ requestKey)
    (hroom : stations.length < RvsHighWatermark) (before after : List Response) :
    sessionAfterPage env b stations page before details after =
        sessionAfterPage env b stations page [] details (before ++ after) ∧
      (sanitizeURI env documentURI = some u →
        sessionAfterPage env b stations page before details after =
          webSocketSession env b stations details (before ++ after)) ∧
      ∀ session, webSocketSession env b stations details (before ++ after) = some session →
        IsSessionOf env (vettedURL env b u (before ++ after)) session ∧
          ((∀ code location body, .answer code location body ∈ before ++ after →
            CheckFileInfo.isRedirect code = false) → sanitizeURI env (env.toString u) = some u →
            session.uriPublic = u ∧ session.docKey = getDocKey env u ∧
              hasReadonlyPermission env (env.toString u) = some session.isReadOnly) := by
  have hsanitized := hwopi
  obtain ⟨u₁, hu₁, -⟩ := hsanitized
  have hafter : ∀ before after : List Response, sessionAfterPage env b stations page before details after =
      (((handleWebSocket env b (answers env b (handlePage env { documentURI := documentURI }) before)
        details.documentURI).answers env b after).move env).session := by
    intro before after
    unfold sessionAfterPage webSocketSession
    rw [hpage]
    simp only [takeStation_of_page hpage hdetails hdoc hnew hroom]
  have hwithout : ∀ rs : List Response, webSocketSession env b stations details rs =
      (((handleWebSocket env b { documentURI := details.documentURI } details.documentURI).answers env b rs).move
        env).session := by
    intro rs
    unfold webSocketSession
    rw [takeStation_of_new hdetails hnew]
  have hvet := handlePage_new hu₁ hwopi
  have hsplit : sessionAfterPage env b stations page before details after =
      sessionAfterPage env b stations page [] details (before ++ after) := by
    rw [hafter, hafter]
    refine Alike.moved ?_
    have harrive := alike_arrival_answers (b := b) hwopi' (s := handlePage env { documentURI := documentURI })
      (by rw [hvet]) (by rw [hvet]) (sent_start u₁ _) before
    have hall := harrive.answers env (b := b) after
    simpa only [RequestVettingStation.answers, List.foldl_append, List.foldl_nil] using hall
  refine ⟨hsplit, fun hsame => ?_, fun session hsession => ?_⟩
  · obtain rfl : u₁ = u := Option.some.inj (hu₁.symm.trans hsame)
    rw [hsplit, hafter, hwithout]
    refine Alike.moved (Alike.answers env ?_ _)
    refine (handleWebSocket_eq hwopi' (s := handlePage env { documentURI := documentURI }) (by rw [hvet])
      (sent_start u₁ _)).trans ?_
    rw [handleWebSocket_new hu hwopi', hvet]
    exact ⟨rfl, rfl, rfl, rfl⟩
  · rw [hwithout, handleWebSocket_new hu hwopi'] at hsession
    have hstart : TransfersVetted env
        { documentURI := details.documentURI, ws := true,
          checkFileInfo := some (CheckFileInfo.start u CheckFileInfo.HTTP_REDIRECTION_LIMIT) }
        (CheckFileInfo.start u CheckFileInfo.HTTP_REDIRECTION_LIMIT) := transfersVetted_start rfl rfl rfl
    have hof : IsSessionOf env (vettedURL env b u (before ++ after)) session :=
      (hstart.answers (before ++ after)).isSessionOf hsession
    refine ⟨hof, fun hnoredirect hback => ?_⟩
    rw [vettedURL_of_not_redirected hnoredirect] at hof
    obtain ⟨huri, hkey, hro⟩ := hof
    obtain rfl : u = session.uriPublic := Option.some.inj (hback.symm.trans huri)
    exact ⟨rfl, hkey, hro⟩

/-! ### Requests with one key -/

def page : ResourceAccessDetails where
  wopiSrc := "https%3A%2F%2Fhost%2Ffile"
  accessToken := "t"
  noAuthHeader := ""
  permission := "edit"

def upgrade (documentURI : String) : RequestDetails where
  documentURI := documentURI
  wopiSrc := "https%3A%2F%2Fhost%2Ffile"
  docUriParams := [("access_token", "t")]

def editing : String := "https://host/file?access_token=t&access_token_ttl=0&permission=edit"

def reading : String := "https://host/file?access_token=t&access_token_ttl=0&permission=readonly"

def redirecting : Response := .answer 302 "https://other/moved?access_token=t" none

/-- The storage redirects: all sessions are of the document that it redirects to.  And a page that asks for another
permission decides for the WebSocket. -/
theorem exists_not_transparent :
    ∃ (env : Environment PlainURI) (b : Brokers) (redirected own ahead : NewClientSession PlainURI),
    (upgrade editing).requestKey env = page.requestKey env ∧ (upgrade reading).requestKey env = page.requestKey env ∧
      (webSocketSession env b [] (upgrade editing) [redirecting, passing] = some redirected ∧
        sessionAfterPage env b [] page [redirecting, passing] (upgrade editing) [] = some redirected ∧
        ((sanitizeURI env editing).map fun u => getDocKey env u) ≠ some redirected.docKey) ∧
      (webSocketSession env b [] (upgrade reading) [passing] = some own ∧
        sessionAfterPage env b [] page [passing] (upgrade reading) [] = some ahead ∧
        own.isReadOnly = true ∧ ahead.isReadOnly = false) :=
  ⟨PlainURI.environment, available, ⟨⟨"https://other/moved".toList, "access_token=t".toList⟩, "%2Fmoved", false⟩,
    ⟨⟨"https://host/file".toList, "access_token=t&access_token_ttl=0&permission=readonly".toList⟩, "%2Ffile", true⟩,
    ⟨⟨"https://host/file".toList, "access_token=t&access_token_ttl=0&permission=edit".toList⟩, "%2Ffile", false⟩,
    by decide +kernel⟩

theorem session_editing :
    sessionAfterPage PlainURI.environment available [] page [passing] (upgrade editing) [] =
      webSocketSession PlainURI.environment available [] (upgrade editing) [passing] := by
  have hpage : page.requestKey PlainURI.environment = some "%2Ffile_t" := by decide +kernel
  have hdetails : (upgrade editing).requestKey PlainURI.environment = some "%2Ffile_t" := by decide +kernel
  have hdoc : page.documentURI PlainURI.environment =
      some "https://host/file?access_token=t&access_token_ttl=0&permission=edit&" := by decide +kernel
  have hu : sanitizeURI PlainURI.environment (upgrade editing).documentURI =
      some ⟨"https://host/file".toList, "access_token=t&access_token_ttl=0&permission=edit".toList⟩ := by
        decide +kernel
  have hroom : ([] : Stations PlainURI).length < RvsHighWatermark := by decide
  have hnew : ∀ p ∈ ([] : Stations PlainURI), p.1 ≠ "%2Ffile_t" := fun _ h => absurd h List.not_mem_nil
  have hsession :=
    session_transparent (b := available) hpage hdetails hdoc (by decide +kernel) (by decide +kernel) hu hnew
    hroom [passing] []
  exact hsession.2.1 (by decide +kernel)

end ClientRequestDispatcher

end CollaboraOnline
