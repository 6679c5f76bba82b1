import CollaboraOnline.Lib.Run
import Mathlib.Data.List.Nodup
import Mathlib.Data.String.Basic

/-!
# Canonical URIs of documents

`getNewUri` replaces the authority of an alias, and makes the first host that matches a regex of the host list the
canonical one of its group.  It looks for aliases with the authority and for hosts with the bare host, and it adds to
the aliases only after it has read them: the URI of a document stays the same where a host is called by its bare name
and belongs to one group (`canonical_of_distinct`).
-/

namespace CollaboraOnline

/-- A URI as `Poco::URI` gives it back; a well-known port is not part of the authority. -/
structure Uri where
  scheme : String
  authority : String
  path : String
deriving DecidableEq, Repr

/-- What is asked of the libraries for regular expressions and for URIs. -/
structure UriLibrary where
  /-- The pattern matches the whole subject; one that is not valid matches nothing. -/
  fullMatch : String → String → Bool
  hostOf : String → String
  /-- The port of an authority, and else that of the scheme. -/
  portOf : String → String → Nat

/-- `HostUtil`; `AliasHosts` and `hostList` are in the order of their strings. -/
structure HostUtil where
  compat : Bool := false
  aliasHosts : List (String × String) := []
  hostList : List String := []
deriving DecidableEq

namespace RegexUtil

/-- The value of the subject, or of the first pattern that matches it; it is empty if there is none. -/
def getMapValue (lib : UriLibrary) (map : List (String × String)) (subject : String) : String :=
  match map.find? fun p => p.1 = subject with
  | some p => p.2
  | none => ((map.find? fun p => lib.fullMatch p.1 subject).map Prod.snd).getD ""

def getSetValue (lib : UriLibrary) (set : List String) (subject : String) : String :=
  if subject ∈ set then subject else (set.find? fun value => lib.fullMatch value subject).getD ""

/-- `emplace` of a sorted map: what is there stays. -/
def emplace (map : List (String × String)) (key value : String) : List (String × String) :=
  if map.any (·.1 = key) then map
  else map.takeWhile (fun p => p.1 < key) ++ (key, value) :: map.dropWhile fun p => p.1 < key

end RegexUtil

namespace HostUtil

open RegexUtil

variable (lib : UriLibrary)

/-- The end of `getNewUri`. -/
def format (scheme authority path : String) : String :=
  if authority = "" then path
  else scheme ++ "://" ++ lib.hostOf authority ++ ":" ++ toString (lib.portOf scheme authority) ++ path

/-- The aliases after a host of the list was called that is not an alias. -/
def noteHost (s : HostUtil) (uri : Uri) : HostUtil :=
  let val := getSetValue lib s.hostList (lib.hostOf uri.authority)
  if val ≠ "" ∧ val ≠ lib.hostOf uri.authority then
    { s with aliasHosts := emplace s.aliasHosts val (lib.hostOf uri.authority) }
  else s

def getNewUri (s : HostUtil) (uri : Uri) : HostUtil × String :=
  if s.compat then (s, uri.path)
  else
    let value := getMapValue lib s.aliasHosts uri.authority
    if value ≠ "" then (s, format lib uri.scheme value uri.path)
    else (s.noteHost lib uri, format lib uri.scheme uri.authority uri.path)

/-- A process with the URIs that it was asked for, and what it answered; `configured` are the aliases it has started
with. -/
structure Process where
  util : HostUtil
  configured : List (String × String)
  log : List (Uri × String) := []
deriving DecidableEq

def step (p : Process) (uri : Uri) : Option Process :=
  some { p with util := (getNewUri lib p.util uri).1, log := p.log ++ [(uri, (getNewUri lib p.util uri).2)] }

/-- The configured aliases are a map. -/
structure IsInit (p : Process) : Prop where
  compat : p.util.compat = false
  configured : p.configured = p.util.aliasHosts
  nodup : (p.configured.map Prod.fst).Nodup
  log : p.log = []

/-- One document has one URI: for one scheme, authority and path, and for the hosts of one regex. -/
def Canonical (p : Process) : Prop :=
  (∀ e ∈ p.log, ∀ e' ∈ p.log, e.1 = e'.1 → e.2 = e'.2) ∧
    ∀ e ∈ p.log, ∀ e' ∈ p.log, e.1.path = e'.1.path →
      (∃ r ∈ p.util.hostList, lib.fullMatch r (lib.hostOf e.1.authority) ∧
      lib.fullMatch r (lib.hostOf e'.1.authority)) →
      e.2 = e'.2

/-! ### The condition -/

/-- The pattern is found for the subject. -/
def Hits (pattern subject : String) : Prop := pattern = subject ∨ lib.fullMatch pattern subject = true

/-- No regex of the host list is found for the URI, but the host itself may be listed. -/
def Apart (p : Process) (uri : Uri) : Prop :=
  ∀ r ∈ p.util.hostList, ¬ Hits lib r uri.authority ∧
  (Hits lib r (lib.hostOf uri.authority) → r = lib.hostOf uri.authority)

/-- The host is called without a port, and an entry of the host list that is found for it is the only entry, of hosts
and of aliases, that is. -/
structure InOneGroup (p : Process) (uri : Uri) : Prop where
  bare : uri.authority = lib.hostOf uri.authority
  named : uri.authority ≠ ""
  only : ∀ r ∈ p.util.hostList, Hits lib r uri.authority → r ≠ "" ∧
    (∀ r' ∈ p.util.hostList, Hits lib r' uri.authority → r' = r) ∧
      ∀ q ∈ p.configured, Hits lib q.1 uri.authority → q.1 = r ∧ q.2 ≠ ""

/-- A host that is listed is not a regex for the other one. -/
def Listed (p : Process) (uri uri' : Uri) : Prop :=
  lib.hostOf uri.authority ∈ p.util.hostList → lib.hostOf uri'.authority ≠ lib.hostOf uri.authority →
    lib.fullMatch (lib.hostOf uri.authority) (lib.hostOf uri'.authority) = false

/-- The hosts of a group are called alike. -/
def Alike (p : Process) (uri uri' : Uri) : Prop :=
  uri.path = uri'.path →
    (∃ r ∈ p.util.hostList, lib.fullMatch r (lib.hostOf uri.authority) ∧
    lib.fullMatch r (lib.hostOf uri'.authority)) →
    uri.scheme = uri'.scheme ∧
      (uri.authority = uri'.authority ∨
        uri.authority = lib.hostOf uri.authority ∧ uri'.authority = lib.hostOf uri'.authority)

structure Distinct (p : Process) (uri : Uri) : Prop where
  group : Apart lib p uri ∨ InOneGroup lib p uri
  listed : ∀ e ∈ p.log, Listed lib p uri e.1 ∧ Listed lib p e.1 uri
  alike : ∀ e ∈ p.log, Alike lib p uri e.1

/-! ### Lookups -/

variable {lib} {map before after : List (String × String)} {set : List String} {key value subject : String}

theorem getMapValue_mem (h : getMapValue lib map subject ≠ "") :
    ∃ q ∈ map, Hits lib q.1 subject ∧ q.2 = getMapValue lib map subject := by
  unfold getMapValue at h ⊢
  cases hexact : map.find? fun p => p.1 = subject with
  | some q =>
    have hq := List.find?_some hexact
    exact ⟨q, List.mem_of_find?_eq_some hexact, .inl (by simpa using hq), rfl⟩
  | none =>
    rw [hexact] at h
    dsimp only at h ⊢
    cases hmatch : map.find? fun p => lib.fullMatch p.1 subject with
    | some q =>
      have hq := List.find?_some hmatch
      exact ⟨q, List.mem_of_find?_eq_some hmatch, .inr hq, rfl⟩
    | none =>
      rw [hmatch] at h
      exact absurd rfl h

/-- An entry whose key is the only one found has the value. -/
theorem getMapValue_of_only (hmem : (key, value) ∈ map) (hhits : Hits lib key subject)
    (honly : ∀ q ∈ map, Hits lib q.1 subject → q.1 = key) (hfun : ∀ q ∈ map, q.1 = key → q.2 = value) :
    getMapValue lib map subject = value := by
  have hall (q : String × String) (hq : q ∈ map) (hit : Hits lib q.1 subject) : q.2 = value :=
    hfun q hq (honly q hq hit)
  unfold getMapValue
  cases hexact : map.find? fun p => p.1 = subject with
  | some q =>
    have hq := List.find?_some hexact
    exact hall q (List.mem_of_find?_eq_some hexact) (.inl (by simpa using hq))
  | none =>
    dsimp only
    cases hmatch : map.find? fun p => lib.fullMatch p.1 subject with
    | some q =>
      have hq := List.find?_some hmatch
      exact hall q (List.mem_of_find?_eq_some hmatch) (.inr hq)
    | none =>
      rw [List.find?_eq_none] at hexact hmatch
      rcases hhits with heq | hfull
      · exact absurd (by simpa using heq) (hexact _ hmem)
      · exact absurd hfull (hmatch _ hmem)

theorem getMapValue_insert (h : ¬ Hits lib key subject) :
    getMapValue lib (before ++ (key, value) :: after) subject = getMapValue lib (before ++ after) subject := by
  obtain ⟨hne, hmatch⟩ := not_or.1 h
  have hfind (f : String × String → Bool) (hf : ¬ f (key, value) = true) :
      (before ++ (key, value) :: after).find? f = (before ++ after).find? f := by
    rw [List.find?_append, List.find?_append, List.find?_cons_of_neg hf]
  unfold getMapValue
  rw [hfind _ (by simpa using hne), hfind _ hmatch]

/-- What is emplaced is put between the others, unless the key is there. -/
theorem emplace_cases (map : List (String × String)) (key value : String) :
    ((∃ q ∈ map, q.1 = key) ∧ emplace map key value = map) ∨
      ((∀ q ∈ map, q.1 ≠ key) ∧ ∃ before after, map = before ++ after ∧
      emplace map key value = before ++ (key, value) :: after) := by
  unfold emplace
  by_cases hany : map.any (·.1 = key) = true
  · rw [if_pos hany]
    obtain ⟨q, hq, hkey⟩ := List.any_eq_true.1 hany
    exact .inl ⟨⟨q, hq, of_decide_eq_true hkey⟩, rfl⟩
  · rw [if_neg hany]
    refine .inr ⟨fun q hq hkey => hany ?_, _, _, (List.takeWhile_append_dropWhile).symm, rfl⟩
    exact List.any_eq_true.2 ⟨q, hq, decide_eq_true hkey⟩

/-- A host that is not listed gets the regex that matches it. -/
theorem getSetValue_cases (lib : UriLibrary) (set : List String) (subject : String) :
    getSetValue lib set subject = subject ∨
      (getSetValue lib set subject ∈ set ∧ lib.fullMatch (getSetValue lib set subject) subject = true) ∨
      (getSetValue lib set subject = "" ∧ ∀ r ∈ set, ¬ Hits lib r subject) := by
  unfold getSetValue
  by_cases hmem : subject ∈ set
  · rw [if_pos hmem]
    exact .inl rfl
  · rw [if_neg hmem]
    cases hfind : set.find? fun value => lib.fullMatch value subject with
    | some r =>
      have hr := List.find?_some hfind
      exact .inr (.inl ⟨List.mem_of_find?_eq_some hfind, hr⟩)
    | none =>
      rw [List.find?_eq_none] at hfind
      refine .inr (.inr ⟨rfl, fun r hr hit => ?_⟩)
      rcases hit with rfl | hmatch
      · exact hmem hr
      · exact hfind r hr hmatch

/-! ### The invariant -/

variable (lib)

/-- The answer that the aliases give. -/
def canonical (map : List (String × String)) (uri : Uri) : String :=
  format lib uri.scheme
    (if getMapValue lib map uri.authority ≠ "" then getMapValue lib map uri.authority else uri.authority) uri.path

structure Inv (p : Process) : Prop where
  compat : p.util.compat = false
  functional : ∀ q ∈ p.util.aliasHosts, ∀ q' ∈ p.util.aliasHosts, q.1 = q'.1 → q.2 = q'.2
  noted : ∀ q ∈ p.util.aliasHosts, q ∈ p.configured ∨ q.1 ∈ p.util.hostList ∧ q.2 ≠ ""
  same : ∀ e ∈ p.log, e.2 = canonical lib p.util.aliasHosts e.1
  group : ∀ e ∈ p.log, Apart lib p e.1 ∨ InOneGroup lib p e.1
  /-- The group of a URI that was called has its canonical host. -/
  entered : ∀ e ∈ p.log, InOneGroup lib p e.1 → ∀ r ∈ p.util.hostList, Hits lib r e.1.authority → r ≠ e.1.authority →
    ∃ v, (r, v) ∈ p.util.aliasHosts ∧ v ≠ ""
  listed : ∀ e ∈ p.log, ∀ e' ∈ p.log, Listed lib p e.1 e'.1
  alike : ∀ e ∈ p.log, ∀ e' ∈ p.log, Alike lib p e.1 e'.1

variable {lib} {p p' : Process} {uri uri' : Uri}

theorem getNewUri_snd {s : HostUtil} (h : s.compat = false) (uri : Uri) :
    (getNewUri lib s uri).2 = canonical lib s.aliasHosts uri := by
  unfold getNewUri canonical
  rw [h, if_neg Bool.false_ne_true]
  dsimp only
  split
  · rfl
  · rfl

theorem getNewUri_fst {s : HostUtil} (h : s.compat = false) (uri : Uri) :
    (getNewUri lib s uri).1 = if getMapValue lib s.aliasHosts uri.authority ≠ "" then s else s.noteHost lib uri := by
  unfold getNewUri
  rw [h, if_neg Bool.false_ne_true]
  dsimp only
  split
  · rfl
  · rfl

/-- Whatever is found for a host of one group is the entry of the group. -/
theorem InOneGroup.eq_of_hits (hinv : Inv lib p) (h : InOneGroup lib p uri) {r : String} (hr : r ∈ p.util.hostList)
    (hit : Hits lib r uri.authority) {q : String × String} (hq : q ∈ p.util.aliasHosts)
    (hit' : Hits lib q.1 uri.authority) : q.1 = r ∧ q.2 ≠ "" := by
  obtain ⟨-, hhosts, haliases⟩ := h.only r hr hit
  rcases hinv.noted q hq with hconf | ⟨hhost, hne⟩
  · exact haliases q hconf hit'
  · exact ⟨hhosts q.1 hhost hit', hne⟩

theorem InOneGroup.value_eq (hinv : Inv lib p) (h : InOneGroup lib p uri) {r v : String} (hr : r ∈ p.util.hostList)
    (hit : Hits lib r uri.authority) (hv : (r, v) ∈ p.util.aliasHosts) :
      getMapValue lib p.util.aliasHosts uri.authority = v :=
  getMapValue_of_only hv hit (fun _ hq hit' => (h.eq_of_hits hinv hr hit hq hit').1)
    fun q hq hkey => hinv.functional q hq (r, v) hv hkey

theorem Inv.isCanonical (h : Inv lib p) : Canonical lib p := by
  refine ⟨fun e he e' he' heq => ?_, fun e he e' he' hpath hmatch => ?_⟩
  · rw [h.same e he, h.same e' he', heq]
  · obtain ⟨hscheme, hauth⟩ := h.alike e he e' he' hpath hmatch
    have hcongr (hauthority : e.1.authority = e'.1.authority) : e.2 = e'.2 := by
      rw [h.same e he, h.same e' he']
      unfold HostUtil.canonical
      rw [hscheme, hauthority, hpath]
    rcases hauth with hsame | ⟨hbare, hbare'⟩
    · exact hcongr hsame
    · obtain ⟨r, hr, hm, hm'⟩ := hmatch
      have hin (e : Uri × String) (he : e ∈ p.log) (hbare : e.1.authority = lib.hostOf e.1.authority)
          (hm : lib.fullMatch r (lib.hostOf e.1.authority) = true) : InOneGroup lib p e.1 := by
        refine (h.group e he).resolve_left fun hapart => ?_
        have heq := (hapart r hr).2 (.inr hm)
        exact (hapart r hr).1 (.inl (heq.trans hbare.symm))
      have hone := hin e he hbare hm
      have hone' := hin e' he' hbare' hm'
      rw [← hbare] at hm
      rw [← hbare'] at hm'
      by_cases heq : e'.1.authority = e.1.authority
      · exact hcongr heq.symm
      -- neither host is the regex: it would be listed, and match the other one
      have hne : r ≠ e.1.authority := by
        rintro rfl
        have hfalse := h.listed e he e' he'
        unfold Listed at hfalse
        rw [← hbare, ← hbare'] at hfalse
        rw [hfalse hr heq] at hm'
        cases hm'
      obtain ⟨v, hv, hvne⟩ := h.entered e he hone r hr (.inr hm) hne
      rw [h.same e he, h.same e' he']
      unfold HostUtil.canonical
      rw [hone.value_eq h hr (.inr hm) hv, hone'.value_eq h hr (.inr hm') hv, hscheme, hpath, if_pos hvne]
      exact (congrArg (fun a => format lib e'.1.scheme a e'.1.path) (if_pos hvne)).symm

/-! ### Steps -/

/-- Only aliases are added: what is known of the URIs that were called stays. -/
theorem Inv.push (h : Inv lib p) (hok : Distinct lib p uri) {map : List (String × String)}
    (hfun : ∀ q ∈ map, ∀ q' ∈ map, q.1 = q'.1 → q.2 = q'.2)
    (hnoted : ∀ q ∈ map, q ∈ p.configured ∨ q.1 ∈ p.util.hostList ∧ q.2 ≠ "")
    (hkeep : ∀ q ∈ p.util.aliasHosts, q ∈ map)
    (hsame : ∀ e ∈ p.log, canonical lib map e.1 = canonical lib p.util.aliasHosts e.1)
    (hnew : canonical lib map uri = canonical lib p.util.aliasHosts uri)
    (hentered : InOneGroup lib p uri → ∀ r ∈ p.util.hostList, Hits lib r uri.authority → r ≠ uri.authority →
      ∃ v, (r, v) ∈ map ∧ v ≠ "") :
    Inv lib { p with
      util := { p.util with aliasHosts := map }, log := p.log ++ [(uri, canonical lib p.util.aliasHosts uri)] } where
  compat := h.compat
  functional := hfun
  noted := hnoted
  same := by
    intro e he
    rcases List.mem_append.1 he with he | he
    · exact (h.same e he).trans (hsame e he).symm
    · rw [List.mem_singleton.1 he]
      exact hnew.symm
  group := by
    intro e he
    rcases List.mem_append.1 he with he | he
    · exact (h.group e he).imp id fun hone => ⟨hone.bare, hone.named, hone.only⟩
    · rw [List.mem_singleton.1 he]
      exact hok.group.imp id fun hone => ⟨hone.bare, hone.named, hone.only⟩
  entered := by
    intro e he hone r hr hit hne
    rcases List.mem_append.1 he with he | he
    · obtain ⟨v, hv, hvne⟩ := h.entered e he ⟨hone.bare, hone.named, hone.only⟩ r hr hit hne
      exact ⟨v, hkeep _ hv, hvne⟩
    · rw [List.mem_singleton.1 he] at hone hit hne
      exact hentered ⟨hone.bare, hone.named, hone.only⟩ r hr hit hne
  listed := by
    intro e he e' he'
    rcases List.mem_append.1 he with he | he
    · rcases List.mem_append.1 he' with he' | he'
      · exact h.listed e he e' he'
      · rw [List.mem_singleton.1 he']
        exact (hok.listed e he).2
    · rw [List.mem_singleton.1 he]
      rcases List.mem_append.1 he' with he' | he'
      · exact (hok.listed e' he').1
      · rw [List.mem_singleton.1 he']
        exact fun _ hne => absurd rfl hne
  alike := by
    intro e he e' he'
    rcases List.mem_append.1 he with he | he
    · rcases List.mem_append.1 he' with he' | he'
      · exact h.alike e he e' he'
      · rw [List.mem_singleton.1 he']
        -- the other way round
        intro hpath hmatch
        obtain ⟨r, hr, hm, hm'⟩ := hmatch
        obtain ⟨hscheme, hauth⟩ := hok.alike e he hpath.symm ⟨r, hr, hm', hm⟩
        exact ⟨hscheme.symm, hauth.imp Eq.symm And.symm⟩
    · rw [List.mem_singleton.1 he]
      rcases List.mem_append.1 he' with he' | he'
      · exact hok.alike e' he'
      · rw [List.mem_singleton.1 he']
        exact fun _ _ => ⟨rfl, .inl rfl⟩

/-- A regex that is entered now was not found for the URIs that were called. -/
theorem Inv.not_hits (h : Inv lib p) (hok : Distinct lib p uri) (hbare : uri.authority = lib.hostOf uri.authority)
    {r : String} (hr : r ∈ p.util.hostList) (hm : lib.fullMatch r uri.authority = true) (hne : r ≠ uri.authority)
    (hfree : ∀ q ∈ p.util.aliasHosts, q.1 ≠ r) : ∀ e ∈ p.log, ¬ Hits lib r e.1.authority := by
  intro e he hit
  rcases h.group e he with hapart | hone
  · exact (hapart r hr).1 hit
  · by_cases heq : r = e.1.authority
    · have hfalse := (hok.listed e he).2
      unfold Listed at hfalse
      rw [← hone.bare, ← hbare, ← heq] at hfalse
      rw [hfalse hr hne.symm] at hm
      cases hm
    · obtain ⟨v, hv, -⟩ := h.entered e he hone r hr hit heq
      exact hfree (r, v) hv rfl

theorem inv_step (h : Inv lib p) (hok : Distinct lib p uri) (hstep : step lib p uri = some p') : Inv lib p' := by
  unfold step at hstep
  obtain rfl := Option.some.inj hstep
  rw [getNewUri_snd h.compat, getNewUri_fst h.compat]
  have hkept (hentered : InOneGroup lib p uri → ∀ r ∈ p.util.hostList, Hits lib r uri.authority → r ≠ uri.authority →
      ∃ v, (r, v) ∈ p.util.aliasHosts ∧ v ≠ "") :
      Inv lib { p with util := p.util, log := p.log ++ [(uri, canonical lib p.util.aliasHosts uri)] } :=
    h.push hok h.functional h.noted (fun _ hq => hq) (fun _ _ => rfl) rfl hentered
  by_cases hvalue : getMapValue lib p.util.aliasHosts uri.authority ≠ ""
  · rw [if_pos hvalue]
    refine hkept fun hone r hr hit _ => ?_
    obtain ⟨q, hq, hit', hqv⟩ := getMapValue_mem hvalue
    obtain ⟨rfl, hne⟩ := hone.eq_of_hits h hr hit hq hit'
    exact ⟨q.2, hq, hne⟩
  · rw [if_neg hvalue]
    have hvalue : getMapValue lib p.util.aliasHosts uri.authority = "" := not_not.1 hvalue
    unfold noteHost
    dsimp only
    generalize hval : getSetValue lib p.util.hostList (lib.hostOf uri.authority) = val
    have hcases := getSetValue_cases lib p.util.hostList (lib.hostOf uri.authority)
    rw [hval] at hcases
    by_cases hnote : val ≠ "" ∧ val ≠ lib.hostOf uri.authority
    · rw [if_pos hnote]
      -- the host becomes the canonical one of its group
      obtain ⟨hmem, hm⟩ : val ∈ p.util.hostList ∧ lib.fullMatch val (lib.hostOf uri.authority) = true := by
        rcases hcases with heq | hfound | ⟨hempty, -⟩
        · exact absurd heq hnote.2
        · exact hfound
        · exact absurd hempty hnote.1
      have hone : InOneGroup lib p uri := hok.group.resolve_left fun hapart => hnote.2 ((hapart val hmem).2 (.inr hm))
      rw [← hone.bare] at hm hnote ⊢
      have hfree : ∀ q ∈ p.util.aliasHosts, q.1 ≠ val := by
        rintro ⟨k, v⟩ hq rfl
        have hv := hone.value_eq h hmem (.inr hm) hq
        exact (hone.eq_of_hits h hmem (.inr hm) hq (.inr hm)).2 (hv.symm.trans hvalue)
      rcases emplace_cases p.util.aliasHosts val
        uri.authority with ⟨⟨q, hq, hkey⟩, -⟩ | ⟨-, before, after, hmap, hemplace⟩
      · exact absurd hkey (hfree q hq)
      rw [hemplace]
      have hmemIff (q : String × String) :
          q ∈ before ++ (val, uri.authority) :: after ↔ q = (val, uri.authority) ∨ q ∈ p.util.aliasHosts := by
        rw [hmap, List.mem_append, List.mem_cons, List.mem_append]
        exact or_left_comm
      have hnothits := h.not_hits hok hone.bare hmem hm hnote.2 hfree
      have hfun : ∀ q ∈ before ++ (val, uri.authority) :: after, ∀ q' ∈ before ++ (val, uri.authority) :: after,
          q.1 = q'.1 → q.2 = q'.2 := by
        intro q hq q' hq' hkey
        rcases (hmemIff q).1 hq with rfl | hq
        · rcases (hmemIff q').1 hq' with rfl | hq'
          · rfl
          · exact absurd hkey.symm (hfree q' hq')
        · rcases (hmemIff q').1 hq' with rfl | hq'
          · exact absurd hkey (hfree q hq)
          · exact h.functional q hq q' hq' hkey
      refine h.push hok hfun (fun q hq => ?_) (fun q hq => (hmemIff q).2 (.inr hq))
        (fun e he => ?_) ?_ fun _ r hr hit _ => ?_
      · rcases (hmemIff q).1 hq with rfl | hq
        · exact .inr ⟨hmem, hone.named⟩
        · exact h.noted q hq
      · unfold canonical
        rw [getMapValue_insert (hnothits e he), ← hmap]
      · have hown : getMapValue lib (before ++ (val, uri.authority) :: after) uri.authority = uri.authority := by
          refine getMapValue_of_only ((hmemIff _).2 (.inl rfl)) (.inr hm) (fun q hq hit => ?_) fun q hq hkey =>
            hfun q hq (val, uri.authority) ((hmemIff _).2 (.inl rfl)) hkey
          rcases (hmemIff q).1 hq with rfl | hq
          · rfl
          · exact (hone.eq_of_hits h hmem (.inr hm) hq hit).1
        unfold canonical
        rw [hown, hvalue, if_pos hone.named, if_neg (not_not.2 rfl)]
      · obtain ⟨-, hhosts, -⟩ := hone.only r hr hit
        rw [← hhosts val hmem (.inr hm)]
        exact ⟨uri.authority, (hmemIff _).2 (.inl rfl), hone.named⟩
    · rw [if_neg hnote]
      refine hkept fun hone r hr hit hne => ?_
      exfalso
      obtain ⟨hrne, hhosts, -⟩ := hone.only r hr hit
      rw [← hone.bare] at hcases hnote
      have hval : val = r := by
        rcases hcases with heq | ⟨hmem, hm⟩ | ⟨-, hnone⟩
        · -- the host is listed itself
          have hlisted : uri.authority ∈ p.util.hostList := by
            by_contra hnot
            rw [← hone.bare] at hval
            unfold getSetValue at hval
            rw [if_neg hnot] at hval
            cases hfind : p.util.hostList.find? fun value => lib.fullMatch value uri.authority with
            | some r' =>
              rw [hfind] at hval
              have hr' : r' = uri.authority := hval.trans heq
              exact hnot (hr' ▸ List.mem_of_find?_eq_some hfind)
            | none =>
              rw [hfind] at hval
              exact hone.named (heq.symm.trans hval.symm)
          exact heq.trans (hhosts _ hlisted (.inl rfl))
        · exact hhosts val hmem (.inr hm)
        · exact absurd hit (hnone r hr)
      exact hnote ⟨fun hempty => hrne (hval.symm.trans hempty), fun heq => hne (hval.symm.trans heq)⟩

/-! ### Runs -/

theorem inv_init (h : IsInit p) : Inv lib p where
  compat := h.compat
  functional := by
    rw [← h.configured]
    exact fun q hq q' hq' hkey => congrArg Prod.snd (List.inj_on_of_nodup_map h.nodup hq hq' hkey)
  noted := by
    rw [← h.configured]
    exact fun _ hq => .inl hq
  same := by
    rw [h.log]
    exact fun e he => absurd he List.not_mem_nil
  group := by
    rw [h.log]
    exact fun e he => absurd he List.not_mem_nil
  entered := by
    rw [h.log]
    exact fun e he => absurd he List.not_mem_nil
  listed := by
    rw [h.log]
    exact fun e he => absurd he List.not_mem_nil
  alike := by
    rw [h.log]
    exact fun e he => absurd he List.not_mem_nil

theorem canonical_of_distinct (h : Run.Reachable IsInit (step lib) (Distinct lib) p) : Canonical lib p :=
  (h.invariant (Inv lib) (fun _ hinit => inv_init hinit) fun _ _ _ _ hinv hok hstep =>
    inv_step hinv hok hstep).isCanonical

section Examples

/-- The one regex matches what starts like it. -/
def wopiLibrary : UriLibrary where
  fullMatch pattern subject :=
    if pattern = "wopi.*" then "wopi".toList.isPrefixOf subject.toList else pattern == subject
  hostOf authority := String.ofList (authority.toList.takeWhile (· ≠ ':'))
  portOf scheme authority :=
    match (authority.toList.dropWhile (· ≠ ':')).drop 1 with
    | [] => if scheme = "https" then 443 else 80
    | digits => digits.foldl (fun n c => 10 * n + (c.toNat - '0'.toNat)) 0

/-- One group of hosts and no alias. -/
def wopiHosts : Process where
  util := { hostList := ["wopi.*"] }
  configured := []

theorem isInit_wopiHosts : IsInit wopiHosts := ⟨rfl, rfl, List.nodup_nil, rfl⟩

/-- The second call finds the first one's host without its port. -/
theorem not_canonical : ¬ ∀ p, Run.Reachable IsInit (step wopiLibrary) Run.Any p → Canonical wopiLibrary p := by
  intro h
  have hrun : ∃ p, Run.Reachable IsInit (step wopiLibrary) Run.Any p ∧
      decide (p.log = [(⟨"https", "wopi1:9980", "/f"⟩, "https://wopi1:9980/f"),
        (⟨"https", "wopi1:9980", "/f"⟩, "https://wopi1:443/f")]) =
        true :=
    Run.Reachable.exists_of_run wopiHosts
      [⟨"https", "wopi1:9980", "/f"⟩, ⟨"https", "wopi1:9980", "/f"⟩] isInit_wopiHosts
      (by decide +kernel)
  obtain ⟨p, hreach, hlog⟩ := hrun
  have hlog := of_decide_eq_true hlog
  have hfirst : ((⟨"https", "wopi1:9980", "/f"⟩, "https://wopi1:9980/f") : Uri × String) ∈ p.log := by
    rw [hlog]
    exact List.mem_cons_self
  have hsecond : ((⟨"https", "wopi1:9980", "/f"⟩, "https://wopi1:443/f") : Uri × String) ∈ p.log := by
    rw [hlog]
    exact List.mem_cons_of_mem _ List.mem_cons_self
  have hsame := (h p hreach).1 _ hfirst _ hsecond rfl
  exact absurd hsame (by decide)

/-- Two hosts of the group. -/
theorem canonical_of_distinct_wopi : ∃ p, Canonical wopiLibrary p ∧
    p.log = [(⟨"https", "wopi1", "/f"⟩, "https://wopi1:443/f"),
    (⟨"https", "wopi2", "/f"⟩, "https://wopi1:443/f")] := by
  let p₁ : Process := { util := { hostList := ["wopi.*"], aliasHosts := [("wopi.*", "wopi1")] }
                        configured := [], log := [(⟨"https", "wopi1", "/f"⟩, "https://wopi1:443/f")] }
  let p₂ : Process := { p₁ with log := p₁.log ++ [(⟨"https", "wopi2", "/f"⟩, "https://wopi1:443/f")] }
  have honly (p : Process) (hhosts : p.util.hostList = ["wopi.*"]) (hconf : p.configured = []) (uri : Uri)
      (hbare : uri.authority = wopiLibrary.hostOf uri.authority) (hnamed : uri.authority ≠ "") :
        InOneGroup wopiLibrary p uri := by
    refine ⟨hbare, hnamed, fun r hr _ => ?_⟩
    rw [hhosts] at hr ⊢
    rw [hconf]
    rw [List.mem_singleton.1 hr]
    exact ⟨by decide, fun r' hr' _ => List.mem_singleton.1 hr', fun q hq => absurd hq List.not_mem_nil⟩
  have hok₀ : Distinct wopiLibrary wopiHosts ⟨"https", "wopi1", "/f"⟩ :=
    ⟨.inr (honly _ rfl rfl _ (by decide +kernel) (by decide)), fun e he => absurd he List.not_mem_nil,
      fun e he => absurd he List.not_mem_nil⟩
  have hok₁ : Distinct wopiLibrary p₁ ⟨"https", "wopi2", "/f"⟩ := by
    refine ⟨.inr (honly _ rfl rfl _ (by decide +kernel) (by decide)), fun e he => ?_, fun e he _ _ => ?_⟩
    · rw [List.mem_singleton.1 he]
      exact ⟨fun hlisted => absurd hlisted (by decide +kernel), fun hlisted => absurd hlisted (by decide +kernel)⟩
    · rw [List.mem_singleton.1 he]
      exact ⟨rfl, .inr ⟨by decide +kernel, by decide +kernel⟩⟩
  have h₁ : Run.Reachable IsInit (step wopiLibrary) (Distinct wopiLibrary) p₁ :=
    .next (.start isInit_wopiHosts) hok₀ (by decide +kernel)
  have h₂ : Run.Reachable IsInit (step wopiLibrary) (Distinct wopiLibrary) p₂ := .next h₁ hok₁ (by decide +kernel)
  exact ⟨p₂, canonical_of_distinct h₂, rfl⟩

end Examples

end HostUtil

end CollaboraOnline
