import CollaboraOnline.Common.StreamSearch
import CollaboraOnline.Net.HttpHeader

/-!
# The origin of the clipboard

`postProcessCopyPayload` puts an element with the clipboard URI into the HTML that is copied, and
`preProcessSetClipboardPayload` takes it out again (`wsd/ClientSession`).  Together they give the payload back
(`preProcess_postProcess`).
-/

namespace CollaboraOnline

namespace ClientSession

open Http (text)
open Search Util

/-! ### The two functions -/

def textPlain : List UInt8 := text "text/plain"

/-- The element up to the URI, and behind it. -/
def metaOrigin : List UInt8 := text "<div id=\"meta-origin\" data-coolorigin=\""
def endtag : List UInt8 := text "\">\n"

/-- `getClipboardURI`, of the public URI of the document's clipboard. -/
def getClipboardURI (encode : List UInt8 → List UInt8) (disableCopy : Bool) (publicURI : List UInt8) : List UInt8 :=
  if disableCopy then [] else encode publicURI

/-- `seekg(0, std::ios::beg)` after `clear`. -/
def rewind (s : IStream) : IStream := { s.clear with pos := 0 }

/-- `StreamCopier::copyStream`. -/
def copyStream (s : IStream) (out : List UInt8) : List UInt8 := out ++ s.rest

/-- What is returned, and what is written to `out`. -/
def postProcessCopyPayload (device : Nat → Nat) (bufferSize : Nat) (clipboardURI : List UInt8) (s : IStream) :
    Option (Bool × List UInt8) := do
  let data := s.read device textPlain.length
  if data.1 = textPlain then return (false, [])
  let first := (rewind data.2).read device 1
  let json := first.1 = text "\x7b"
  let body ← copyToMatch device bufferSize (rewind first.2) [] (text "<body")
  if !body.matched then return (false, body.out.getD [])
  let tag ← copyToMatch device bufferSize body.stream (body.out.getD []) (text ">")
  if !tag.matched then return (false, tag.out.getD [])
  let s := tag.stream.seekCur 1
  let origin := if json then text "<div id=\\\"meta-origin\\\" data-coolorigin=\\\"" ++ clipboardURI ++
    text "\\\">\\n"
    else metaOrigin ++ clipboardURI ++ endtag
  let closing ← copyToMatch device bufferSize s (tag.out.getD [] ++ text ">" ++ origin) (text "</body>")
  if closing.matched then return (true, copyStream closing.stream (closing.out.getD [] ++ text "</div>"))
  return (true, copyStream closing.stream (closing.out.getD []))

def preProcessSetClipboardPayload (device : Nat → Nat) (bufferSize : Nat) (s : IStream) :
    Option (Bool × List UInt8) := do
  let origin ← copyToMatch device bufferSize s [] metaOrigin
  if !origin.matched then return (false, origin.out.getD [])
  let tag ← seekToMatch device bufferSize origin.stream endtag
  if !tag.matched then return (false, origin.out.getD [])
  let closing ← copyToMatch device bufferSize (tag.stream.seekCur endtag.length) (origin.out.getD [])
    (text "</div></body>")
  if !closing.matched then return (false, closing.out.getD [])
  return (true, copyStream (closing.stream.seekCur (text "</div>").length) (closing.out.getD []))

/-! ### Streams that are searched -/

section Streams

variable {device : Nat → Nat} {bufferSize : Nat} {s : IStream} {out : Option (List UInt8)} {search : List UInt8}
  {i n : Nat}

variable (device out) in
theorem processToMatch_first (hgood : s.good = true) (hsearch : search ≠ []) (hbuffer : 0 < bufferSize)
    (hi : First search s.rest i) :
    ∃ s', processToMatch device bufferSize s out search = some ⟨true, s', write out (s.rest.take i)⟩ ∧
      s'.content = s.content ∧ s'.pos = s.pos + i ∧ s'.good = true := by
  obtain ⟨⟨matched, s', out'⟩, hr, hexact⟩ :=
    processToMatch_exact device bufferSize s out search hgood hsearch hbuffer
  obtain ⟨hmatched, hout, hpos, hgood'⟩ := hexact.found i hi
  dsimp only at hmatched hout hpos hgood'
  subst hmatched hout
  exact ⟨s', hr, hexact.content, hpos, hgood'⟩

theorem rest_of_pos {s' : IStream} (hcontent : s'.content = s.content) (hpos : s'.pos = s.pos + i) :
    s'.rest = s.rest.drop i := by
  unfold IStream.rest
  rw [hcontent, hpos, List.drop_drop]

theorem seekCur_nat (h : s.pos + n ≤ s.content.length) : s.seekCur n = { s with pos := s.pos + n } := by
  unfold IStream.seekCur
  rw [if_pos (by omega)]
  congr 1

/-- The stream of the rest of the content behind `a`. -/
theorem rest_eq {a b : List UInt8} (hcontent : s.content = a ++ b) (hpos : s.pos = a.length) : s.rest = b := by
  unfold IStream.rest
  rw [hcontent, hpos, List.drop_left]

end Streams

/-! ### Copying -/

section Copying

variable {device : Nat → Nat} {bufferSize : Nat} {payload clipboardURI a b c : List UInt8} {i j k : Nat}

theorem postProcessCopyPayload_eq (hbuffer : 0 < bufferSize) (hplain : ¬ textPlain <+: payload)
    (hjson : payload.head? ≠ some 0x7b) (hi : First (text "<body") payload i)
    (hj : First (text ">") (payload.drop i) j) (hk : First (text "</body>") (payload.drop (i + j + 1)) k) :
    postProcessCopyPayload device bufferSize clipboardURI { content := payload } =
      some (true, payload.take (i + j) ++ text ">" ++ (metaOrigin ++ clipboardURI ++ endtag) ++
        (payload.drop (i + j + 1)).take k ++ text "</div>" ++ (payload.drop (i + j + 1)).drop k) := by
  have hread : ∀ n, (({ content := payload } : IStream).read device n).1 = payload.take n :=
    fun n => (IStream.read_eq device n (s := { content := payload }) rfl).1
  have hcontent : ∀ n, rewind (({ content := payload } : IStream).read device n).2 =
      { content := payload, reads := (({ content := payload } : IStream).read device n).2.reads } := by
    intro n
    have hc := (IStream.read_eq device n (s := { content := payload }) rfl).2.1
    unfold rewind IStream.clear
    rw [hc]
  have hplain' : ¬ payload.take textPlain.length = textPlain := fun h => hplain (h ▸ List.take_prefix _ _)
  unfold postProcessCopyPayload
  dsimp only
  rw [hread, if_neg hplain', hcontent]
  generalize (({ content := payload } : IStream).read device textPlain.length).2.reads = reads
  have hfirst : (({ content := payload, reads := reads } : IStream).read device 1).1 = payload.take 1 :=
    (IStream.read_eq device 1 (s := { content := payload, reads := reads }) rfl).1
  have hjson' : ¬ payload.take 1 = text "\x7b" := by
    intro h
    cases payload with
    | nil => cases h
    | cons x payload =>
      have hx : x = 0x7b := by simpa [text] using h
      exact hjson (by rw [hx]; rfl)
  have hrewind : ∀ n, (rewind (({ content := payload, reads := reads } : IStream).read device n).2).content =
    payload := by
    intro n
    exact (IStream.read_eq device n (s := { content := payload, reads := reads }) rfl).2.1
  rw [hfirst]
  simp only [if_neg hjson']
  generalize hs : rewind (({ content := payload, reads := reads } : IStream).read device 1).2 = s
  have hsc : s.content = payload := by rw [← hs]; exact hrewind 1
  have hsp : s.pos = 0 := by rw [← hs]; rfl
  have hsg : s.good = true := by rw [← hs]; rfl
  have hsr : s.rest = payload := by
    unfold IStream.rest
    rw [hsc, hsp, List.drop_zero]
  -- up to the body
  obtain ⟨s₁, h₁, hc₁, hp₁, hg₁⟩ := processToMatch_first device (some []) hsg (by decide) hbuffer (hsr ▸ hi)
  have hr₁ : s₁.rest = payload.drop i := by rw [rest_of_pos hc₁ hp₁, hsr]
  -- up to the end of the tag
  obtain ⟨s₂, h₂, hc₂, hp₂, hg₂⟩ := processToMatch_first device
    (write (some []) (s.rest.take i)) hg₁ (by decide) hbuffer (hr₁ ▸ hj)
  have hjle := hj.occurs.le (by decide)
  have hlen : s₂.pos + 1 ≤ s₂.content.length := by
    have hone : (text ">").length = 1 := rfl
    rw [List.length_drop, hone] at hjle
    rw [hp₂, hp₁, hsp, hc₂, hc₁, hsc]
    omega
  have hr₃ : (s₂.seekCur 1).rest = payload.drop (i + j + 1) := by
    have hseek := seekCur_nat hlen
    rw [Nat.cast_one] at hseek
    rw [hseek]
    unfold IStream.rest
    dsimp only
    rw [hc₂, hc₁, hsc, hp₂, hp₁, hsp, Nat.zero_add]
  have hg₃ : (s₂.seekCur 1).good = true := by
    have hseek := seekCur_nat hlen
    rw [Nat.cast_one] at hseek
    rw [hseek]
    exact hg₂
  obtain ⟨s₄, h₄, hc₄, hp₄, -⟩ := processToMatch_first device
    (some (payload.take i ++ (payload.drop i).take j ++ text ">" ++ (metaOrigin ++ clipboardURI ++ endtag)))
    hg₃ (by decide) hbuffer (hr₃ ▸ hk)
  have hr₄ : s₄.rest = (payload.drop (i + j + 1)).drop k := by rw [rest_of_pos hc₄ hp₄, hr₃]
  rw [hsr] at h₁ h₂
  rw [hr₁] at h₂
  rw [hr₃] at h₄
  unfold copyToMatch
  rw [h₁]
  simp only [write, Option.map_some, List.nil_append] at h₂ ⊢
  simp only [Option.bind_eq_bind, Option.bind_some, Bool.not_true, Bool.false_eq_true, if_false, Option.getD_some]
  rw [h₂]
  simp only [Option.bind_some, Bool.not_true, Bool.false_eq_true, if_false, Option.getD_some]
  rw [h₄]
  simp only [Option.bind_some, if_true, copyStream, hr₄, write, Option.map_some, Option.getD_some, List.take_add]
  rfl

/-- Behind the body there is no closing tag before the one that closes the element. -/
theorem first_closing (hb : ∀ n, ¬ OccursAt (text "</body>") b n) :
    First (text "</div></body>") (b ++ (text "</div></body>" ++ c)) b.length := by
  have hdiv : ∀ n, ¬ OccursAt (text "</body>") (b ++ text "</div>") n := by
    intro n hn
    have hle := hn.le (by decide)
    have hge := OccursAt.le_of_head (x := 0x3c) (b := text "/div>")
      (show Unbordered (0x3c :: text "/body>") by decide) hb hn
    have hlen : (text "</div>").length = 6 ∧ (text "</body>").length = 7 := ⟨rfl, rfl⟩
    rw [List.length_append] at hle
    omega
  have hbody := first_append (b := c) (show Unbordered (text "</body>") by decide) hdiv
  have hoccurs : OccursAt (text "</div></body>") (b ++ (text "</div></body>" ++ c)) (b.length + 0) :=
    occursAt_append_right.2 (List.prefix_append _ c)
  refine ⟨hoccurs, fun n hn hoccurs' => ?_⟩
  have hclosing : OccursAt (text "</body>") (b ++ (text "</div></body>" ++ c)) (n + (text "</div>").length) :=
    OccursAt.of_append (a := text "</div>") hoccurs'
  have hassoc : b ++ (text "</div></body>" ++ c) = b ++ text "</div>" ++ (text "</body>" ++ c) := by
    rw [List.append_assoc]
    rfl
  rw [hassoc] at hclosing
  refine hbody.least _ ?_ hclosing
  rw [List.length_append]
  omega

variable (device) in
theorem preProcessSetClipboardPayload_eq (hbuffer : 0 < bufferSize) (ha : ∀ n, ¬ OccursAt metaOrigin a n)
    (huri : 0x3e ∉ clipboardURI) (hb : ∀ n, ¬ OccursAt (text "</body>") b n) :
    preProcessSetClipboardPayload device bufferSize
        { content := a ++ (metaOrigin ++ (clipboardURI ++ (endtag ++ (b ++ (text "</div></body>" ++ c))))) } =
      some (true, a ++ b ++ text "</body>" ++ c) := by
  have hend : ∀ n, ¬ OccursAt endtag (metaOrigin ++ clipboardURI) n := by
    intro n hn
    have hgt := occursAt_iff.1 hn 1 (by decide)
    have hmem : (0x3e : UInt8) ∈ metaOrigin ++ clipboardURI := List.mem_of_getElem? hgt
    rcases List.mem_append.1 hmem with h | h
    · exact absurd h (by decide)
    · exact huri h
  -- up to the element
  have hfirst := first_append (b := clipboardURI ++ (endtag ++ (b ++ (text "</div></body>" ++ c))))
    (show Unbordered metaOrigin by decide) ha
  generalize hs :
    ({ content := a ++ (metaOrigin ++ (clipboardURI ++ (endtag ++ (b ++ (text "</div></body>" ++ c))))) } :
    IStream) = s
  have hsc : s.content = a ++ (metaOrigin ++ (clipboardURI ++ (endtag ++ (b ++ (text "</div></body>" ++ c))))) := by
    rw [← hs]
  have hsp : s.pos = 0 := by rw [← hs]
  have hsg : s.good = true := by rw [← hs]
  have hsr : s.rest = s.content := by
    unfold IStream.rest
    rw [hsp, List.drop_zero]
  obtain ⟨s₁, h₁, hc₁, hp₁, hg₁⟩ := processToMatch_first device (some []) hsg
    (show metaOrigin ≠ [] by decide) hbuffer (by rw [hsr, hsc]; exact hfirst)
  rw [hsr, hsc, List.take_left] at h₁
  -- behind it
  have hr₁ : s₁.rest = metaOrigin ++ clipboardURI ++ (endtag ++ (b ++ (text "</div></body>" ++ c))) := by
    rw [List.append_assoc]
    exact rest_eq (hc₁.trans hsc) (by rw [hp₁, hsp, Nat.zero_add])
  obtain ⟨s₂, h₂, hc₂, hp₂, hg₂⟩ := processToMatch_first device none hg₁ (by decide) hbuffer
    (hr₁ ▸ first_append (b := b ++ (text "</div></body>" ++ c)) (show Unbordered endtag by decide) hend)
  have hsc₂ : s₂.content = a ++ (metaOrigin ++ clipboardURI) ++ (endtag ++ (b ++ (text "</div></body>" ++ c))) := by
    rw [hc₂, hc₁, hsc]
    simp only [List.append_assoc]
  have hsp₂ : s₂.pos = (a ++ (metaOrigin ++ clipboardURI)).length := by
    rw [hp₂, hp₁, hsp, Nat.zero_add]
    simp only [List.length_append]
  have hseek : s₂.seekCur endtag.length = { s₂ with pos := s₂.pos + endtag.length } := by
    refine seekCur_nat ?_
    rw [hsc₂, hsp₂]
    simp only [List.length_append]
    omega
  have hr₃ : (s₂.seekCur endtag.length).rest = b ++ (text "</div></body>" ++ c) := by
    rw [hseek]
    refine rest_eq (a := a ++ (metaOrigin ++ clipboardURI) ++ endtag) ?_ ?_
    · rw [List.append_assoc]
      exact hsc₂
    · dsimp only
      rw [List.length_append, ← hsp₂]
  -- up to the closing tags
  obtain ⟨s₄, h₄, hc₄, hp₄, -⟩ := processToMatch_first device (some a)
    (show (s₂.seekCur endtag.length).good = true by rw [hseek]; exact hg₂) (by decide) hbuffer
    (hr₃ ▸ first_closing (c := c) hb)
  rw [hr₃, List.take_left] at h₄
  have hsc₄ : s₄.content = a ++ (metaOrigin ++ clipboardURI) ++ endtag ++ b ++ (text "</div></body>" ++ c) := by
    rw [hc₄, hseek]
    dsimp only
    rw [hsc₂]
    simp only [List.append_assoc]
  have hsp₄ : s₄.pos = (a ++ (metaOrigin ++ clipboardURI) ++ endtag ++ b).length := by
    rw [hp₄, hseek]
    dsimp only
    rw [hsp₂]
    simp only [List.length_append]
  have hseek₄ : s₄.seekCur (text "</div>").length = { s₄ with pos := s₄.pos + (text "</div>").length } := by
    refine seekCur_nat ?_
    have hlen : (text "</div>").length ≤ (text "</div></body>").length := by decide
    rw [hsc₄, hsp₄]
    simp only [List.length_append]
    omega
  have hr₅ : (s₄.seekCur (text "</div>").length).rest = text "</body>" ++ c := by
    rw [hseek₄]
    refine rest_eq (a := a ++ (metaOrigin ++ clipboardURI) ++ endtag ++ b ++ text "</div>") ?_ ?_
    · dsimp only
      rw [hsc₄]
      simp only [List.append_assoc]
      rfl
    · dsimp only
      rw [List.length_append, ← hsp₄]
  unfold preProcessSetClipboardPayload copyToMatch seekToMatch
  rw [h₁]
  simp only [write, Option.map_some, List.nil_append, Option.bind_eq_bind, Option.bind_some, Bool.not_true,
    Bool.false_eq_true, if_false, Option.getD_some]
  rw [h₂]
  simp only [Option.bind_some, Bool.not_true, Bool.false_eq_true, if_false]
  rw [h₄]
  simp only [Option.bind_some, Bool.not_true, Bool.false_eq_true, if_false, copyStream, hr₅, write, Option.map_some,
    Option.getD_some, List.append_assoc]
  rfl

end Copying

/-- What was copied is given back by the paste, for every payload with a body. -/
theorem preProcess_postProcess (device device' : Nat → Nat) (bufferSize : Nat) (encode : List UInt8 → List UInt8)
    (disableCopy : Bool) (publicURI payload : List UInt8) (hbuffer : 0 < bufferSize)
    (hencode : ∀ uri, 0x3e ∉ encode uri) (hjson : payload.head? ≠ some 0x7b) (hplain : ¬ textPlain <+: payload)
    (hbody : ∃ i j k, OccursAt (text "<body") payload i ∧ OccursAt (text ">") payload j ∧
      OccursAt (text "</body>") payload k ∧ i < j ∧ j < k)
    (hmarker : ∀ i, ¬ OccursAt metaOrigin payload i) :
    ∃ out, postProcessCopyPayload device bufferSize (getClipboardURI encode disableCopy publicURI)
      { content := payload } =
        some (true, out) ∧
      preProcessSetClipboardPayload device' bufferSize { content := out } = some (true, payload) := by
  obtain ⟨i', j', k', hi', hj', hk', hij, hjk⟩ := hbody
  have hfind : ∀ (pat s : List UInt8) (n : Nat), OccursAt pat s n → ∃ m, First pat s m ∧ m ≤ n := by
    intro pat s n hn
    cases hf : find pat s with
    | none => exact absurd hn (find_eq_none.1 hf n)
    | some m =>
      have hm := find_eq_some.1 hf
      exact ⟨m, hm, Nat.le_of_not_lt fun hlt => hm.least n hlt hn⟩
  obtain ⟨i, hi, hile⟩ := hfind _ _ _ hi'
  obtain ⟨j, hj, hjle⟩ := hfind (text ">") (payload.drop i) (j' - i)
    (occursAt_drop.2 (by rw [Nat.add_sub_cancel' (by omega)]; exact hj'))
  obtain ⟨k, hk, -⟩ := hfind (text "</body>") (payload.drop (i + j + 1)) (k' - (i + j + 1))
    (occursAt_drop.2 (by rw [Nat.add_sub_cancel' (by omega)]; exact hk'))
  have huri : 0x3e ∉ getClipboardURI encode disableCopy publicURI := by
    unfold getClipboardURI
    split
    · exact List.not_mem_nil
    · exact hencode publicURI
  generalize getClipboardURI encode disableCopy publicURI = clipboardURI at huri ⊢
  refine ⟨_, postProcessCopyPayload_eq hbuffer hplain hjson hi hj hk, ?_⟩
  obtain ⟨hsplit, hnone⟩ := hk.split (by decide)
  -- the tag ends with the character that was found
  have htag : payload.take (i + j) ++ text ">" = payload.take (i + j + 1) := by
    have hgt := occursAt_iff.1 (occursAt_drop.1 hj.occurs) 0 (by decide)
    rw [Nat.add_zero] at hgt
    rw [List.take_add_one, hgt]
    rfl
  have ha : ∀ n, ¬ OccursAt metaOrigin (payload.take (i + j) ++ text ">") n := by
    intro n hn
    rw [htag] at hn
    exact hmarker n (hn.of_take (by decide)).1
  generalize hrest : payload.drop (i + j + 1) = rest at *
  have hdrop : rest.drop k = text "</body>" ++ rest.drop (k + (text "</body>").length) := by
    obtain ⟨t, ht⟩ := hk.occurs
    rw [← List.drop_drop, ← ht, List.drop_left]
  have hpre := preProcessSetClipboardPayload_eq device'
    (c := rest.drop (k + (text "</body>").length)) hbuffer ha huri hnone
  have hout : payload.take (i + j) ++ text ">" ++ (metaOrigin ++ clipboardURI ++ endtag) ++ rest.take k ++
    text "</div>" ++
      rest.drop k = payload.take (i + j) ++ text ">" ++ (metaOrigin ++ (clipboardURI ++ (endtag ++ (rest.take k ++
        (text "</div></body>" ++ rest.drop (k + (text "</body>").length)))))) := by
    rw [hdrop]
    simp only [List.append_assoc]
    rfl
  rw [hout, hpre]
  congr 2
  calc payload.take (i + j) ++ text ">" ++ rest.take k ++ text "</body>" ++ rest.drop (k + (text "</body>").length)
      = payload.take (i + j) ++ text ">" ++ (rest.take k ++ rest.drop k) := by
        rw [hdrop]
        simp only [List.append_assoc]
    _ = payload.take (i + j + 1) ++ rest := by rw [List.take_append_drop, htag]
    _ = payload := by rw [← hrest, List.take_append_drop]

def hexDigit (n : UInt8) : UInt8 := (text "0123456789ABCDEF").getD n.toNat 0x30

/-- Percent encoding of all but letters, digits and a few marks. -/
def percentEncode (uri : List UInt8) : List UInt8 :=
  uri.flatMap fun c =>
    if (text "ABCDEFGHIJKLMNOPQRSTUVWXYZabcdefghijklmnopqrstuvwxyz0123456789-_.~").contains c then [c]
    else [0x25, hexDigit (c >>> 4), hexDigit (c &&& 0xf)]

theorem not_mem_percentEncode (uri : List UInt8) : 0x3e ∉ percentEncode uri := by
  have hdigit : ∀ n, 0x3e ≠ hexDigit n := by
    intro n h
    unfold hexDigit at h
    rw [List.getD_eq_getElem?_getD] at h
    cases hget : (text "0123456789ABCDEF")[n.toNat]? with
    | none => simp [hget] at h
    | some d =>
      rw [hget, Option.getD_some] at h
      exact absurd (h ▸ List.mem_of_getElem? hget) (by decide)
  unfold percentEncode
  rw [List.mem_flatMap]
  rintro ⟨c, -, hc⟩
  split at hc
  · rename_i hmark
    obtain rfl := List.mem_singleton.1 hc
    exact absurd hmark (by decide)
  · simp only [List.mem_cons, List.not_mem_nil, or_false] at hc
    rcases hc with h | h | h
    · exact absurd h (by decide)
    · exact hdigit _ h
    · exact hdigit _ h

/-- A payload with a second body tag, in windows of four bytes. -/
theorem preProcess_postProcess_bodies :
    ∃ out, postProcessCopyPayload (fun _ => 0) 4 (getClipboardURI percentEncode false (text "https://host/a?b=\"c"))
        { content := text "<html><body><div><body></div></body>" } = some (true, out) ∧
      preProcessSetClipboardPayload (fun _ => 2) 4 { content := out } =
        some (true, text "<html><body><div><body></div></body>") :=
  preProcess_postProcess (fun _ => 0) (fun _ => 2) 4 percentEncode false (text "https://host/a?b=\"c")
    (text "<html><body><div><body></div></body>") (by decide) not_mem_percentEncode (by decide) (by decide)
    ⟨6, 11, 29, ⟨_, rfl⟩, ⟨_, rfl⟩, ⟨_, rfl⟩, by decide, by decide⟩
    (find_eq_none.1 (by decide))

end ClientSession

end CollaboraOnline
