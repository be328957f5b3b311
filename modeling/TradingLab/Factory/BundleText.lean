import TradingLab.Factory.Bundle

/-!
# The steps and the text of an ingest

A file that an ingest has written stays as it is. Writes that have been performed
can be performed again, and then change nothing.
-/

namespace TradingLab.Factory

section
variable {plan : Plan}

theorem performAll_cons (step : IngestStep) (steps : List IngestStep) (s : Site) :
    (performAll plan (step :: steps)).call s = match (step.perform plan).call s with
      | (.ok _, t) => (performAll plan steps).call t
      | (.error e, t) => (.error e, t) := by
  rw [performAll, Method.call_bind]
  rcases (step.perform plan).call s with ⟨r, t⟩
  cases r with
  | ok u => rfl
  | error e => rfl

variable {s : Site} {path : List String} {file : File}

variable {steps : List IngestStep} {t : Site} {manifest : JsonMembers}

theorem performAll_cons_eq_ok {step : IngestStep} {u : Site} :
    (performAll plan (step :: steps)).call s = (.ok (), u) ↔
      ∃ t, (step.perform plan).call s = (.ok (), t) ∧ (performAll plan steps).call t = (.ok (), u) := by
  rw [performAll, Method.call_bind_eq_ok]
  constructor
  · intro h
    obtain ⟨_, t, hstep, hsteps⟩ := h
    exact ⟨t, hstep, hsteps⟩
  · intro h
    obtain ⟨t, hstep, hsteps⟩ := h
    exact ⟨(), t, hstep, hsteps⟩

theorem performAll_append {first : List IngestStep}
    (h : (performAll plan first).call s = (.ok (), t)) (rest : List IngestStep) :
    (performAll plan (first ++ rest)).call s = (performAll plan rest).call t := by
  induction first generalizing s with
  | nil =>
    cases h
    rfl
  | cons step steps ih =>
    obtain ⟨u, hstep, hsteps⟩ := performAll_cons_eq_ok.mp h
    rw [List.cons_append, performAll_cons, hstep]
    exact ih hsteps

theorem not_mem_of_performAll
    (h : (performAll plan steps).call s = (.ok (), t)) (e : Failure) : .refuse e ∉ steps := by
  induction steps generalizing s with
  | nil => exact List.not_mem_nil
  | cons step steps ih =>
    obtain ⟨u, hstep, hsteps⟩ := performAll_cons_eq_ok.mp h
    intro hmem
    rcases List.mem_cons.mp hmem with heq | hmem
    · subst heq
      cases hstep
    · exact ih hsteps hmem

theorem call_write (path : List String) (text : List Char) (s : Site) :
    ((IngestStep.write path text).perform plan).call s = match s.results.find? path with
      | none => (.ok (), { s with results := s.results.put ⟨path, text⟩ })
      | some file => (raiseIf (file.text ≠ text) (.mcf "artifact collision"), s) := by
  rw [IngestStep.perform, onResults, Method.call_zoom]
  cases h : s.results.find? path with
  | none => rw [call_writeOnce_of_none text h]
  | some file =>
    rw [call_writeOnce_of_some text h]
    dsimp only
    by_cases hsame : file.text ≠ text
    · rw [raiseIf_pos hsame]
      rfl
    · rw [raiseIf_neg hsame]

theorem call_write_of_none (text : List Char)
    (h : s.results.find? path = none) : ((IngestStep.write path text).perform plan).call s =
      (.ok (), { s with results := s.results.put ⟨path, text⟩ }) := by
  rw [call_write, h]

theorem results_mark (manifest : JsonMembers) (s : Site) :
    (((IngestStep.mark manifest).perform plan).after s).results = s.results := by
  unfold IngestStep.perform onRegistry Method.after
  rw [Method.call_read_bind, Method.call_zoom]
  split <;> rfl

theorem call_mark (hb : Bound plan s.registry)
    (hm : ValidManifest plan manifest) : ((IngestStep.mark manifest).perform plan).call s =
      match ingestRefusal (manifestSha manifest) (s.registry.batch? (manifestCode manifest)) with
      | some message => (.error (.mcf message), s)
      | none => (.ok (), { s with
          registry := s.registry.update (fun b => b.batchCode = manifestCode manifest)
            (ingested (manifestSha manifest) s.clock) fun _ => rfl }) := by
  rw [IngestStep.perform, onRegistry, Method.call_read_bind, Method.call_zoom,
    call_markIngested hb hm]
  cases ingestRefusal (manifestSha manifest) (s.registry.batch? (manifestCode manifest)) with
  | none => rfl
  | some message => rfl

theorem find?_perform (step : IngestStep) (h : s.results.find? path = some file) :
    ((step.perform plan).after s).results.find? path = some file := by
  cases step with
  | refuse e => exact h
  | verify manifest => exact h
  | mark manifest =>
    rw [results_mark]
    exact h
  | write target text =>
    unfold Method.after
    rw [call_write]
    cases hfind : s.results.find? target with
    | some other => exact h
    | none =>
      have hne : target ≠ path := by
        rintro rfl
        rw [h] at hfind
        cases hfind
      exact (Table.find?_put_ne hne).trans h

theorem find?_performAll (steps : List IngestStep) (h : s.results.find? path = some file) :
    ((performAll plan steps).after s).results.find? path = some file := by
  induction steps generalizing s with
  | nil => exact h
  | cons step steps ih =>
    have hstep : ((step.perform plan).after s).results.find? path = some file := find?_perform step h
    unfold Method.after at hstep ⊢
    rw [performAll_cons]
    rcases hcall : (step.perform plan).call s with ⟨r, t⟩
    rw [hcall] at hstep
    cases r with
    | ok u => exact ih hstep
    | error e => exact hstep

/-- The site after a batch was marked and its receipt written. -/
def Site.ingested (s : Site) (manifest : JsonMembers) (receipt : File) : Site where
  registry := s.registry.update (fun b => b.batchCode = manifestCode manifest)
    (Factory.ingested (manifestSha manifest) s.clock) fun _ => rfl
  results := s.results.put receipt
  clock := s.clock

theorem performAll_finish {receipt : Receipt}
    (hverify : verifyBatchManifest s.results plan manifest = .ok ()) (hb : Bound plan s.registry)
    (hm : ValidManifest plan manifest)
    (hnone : ingestRefusal (manifestSha manifest)
      (s.registry.batch? (manifestCode manifest)) = none) (hreceipt : receiptStep receipt = .write file.path file.text)
    (hnew : s.results.find? file.path = none) :
    (performAll plan [.verify manifest, .mark manifest, receiptStep receipt]).call s =
      (.ok (), s.ingested manifest file) := by
  have hmark := call_mark hb hm
  rw [hnone] at hmark
  rw [performAll_cons_eq_ok]
  refine ⟨s, Prod.ext hverify rfl, ?_⟩
  rw [performAll_cons_eq_ok]
  refine ⟨_, hmark, ?_⟩
  rw [performAll_cons_eq_ok, hreceipt]
  exact ⟨_, call_write_of_none file.text hnew, rfl⟩

end

end TradingLab.Factory

/-!
## Sizes of texts

How many bytes a document takes, at most, in terms of its parts.
-/

namespace TradingLab.Factory

theorem byteLength_cons (c : Char) (cs : List Char) :
    byteLength (c :: cs) = c.utf8Size + byteLength cs := by
  rw [byteLength, byteLength, List.map_cons, List.sum_cons]

theorem byteLength_append (a b : List Char) : byteLength (a ++ b) = byteLength a + byteLength b := by
  rw [byteLength, byteLength, byteLength, List.map_append, List.sum_append]

theorem byteLength_le (cs : List Char) : byteLength cs ≤ 4 * cs.length := by
  induction cs with
  | nil => exact le_rfl
  | cons c cs ih =>
    have hc := c.utf8Size_le_four
    rw [byteLength_cons, List.length_cons]
    omega

theorem byteLength_flatten (texts : List (List Char)) :
    byteLength texts.flatten = (texts.map byteLength).sum := by
  induction texts with
  | nil => rfl
  | cons text texts ih => rw [List.flatten_cons, byteLength_append, ih, List.map_cons, List.sum_cons]

theorem byteLength_escapePlain (c : Char) : byteLength (Json.escapePlain c) ≤ 6 := by
  have hsmall : ∀ n < 127, byteLength (Json.escapePlain (Char.ofNat n)) ≤ 6 := by decide
  by_cases hc : c.toNat < 127
  · have h := hsmall c.toNat hc
    rwa [Char.ofNat_toNat] at h
  · have hsize := Char.utf8Size_le_four c
    rw [Json.escapePlain, if_neg hc, byteLength, List.map_singleton, List.sum_singleton]
    omega

theorem length_le_plainStrChars (s : String) :
    s.toList.length < byteLength (Json.plainStrChars s) := by
  have hsmall : ∀ n < 127, 1 ≤ byteLength (Json.escapePlain (Char.ofNat n)) := by decide
  have hchar : ∀ c : Char, 1 ≤ byteLength (Json.escapePlain c) := by
    intro c
    by_cases hc : c.toNat < 127
    · have h := hsmall c.toNat hc
      rwa [Char.ofNat_toNat] at h
    · have hsize := c.utf8Size_pos
      rw [Json.escapePlain, if_neg hc, byteLength, List.map_singleton, List.sum_singleton]
      omega
  have hflat : ∀ cs : List Char, cs.length ≤ byteLength (cs.flatMap Json.escapePlain) := by
    intro cs
    induction cs with
    | nil => exact le_rfl
    | cons c cs ih =>
      have hc := hchar c
      rw [List.flatMap_cons, byteLength_append, List.length_cons]
      omega
  have hquote : ('"' : Char).utf8Size = 1 := by decide
  have h := hflat s.toList
  rw [Json.plainStrChars, byteLength_cons, byteLength_append, hquote]
  omega

theorem byteLength_plainStrChars (s : String) :
    byteLength (Json.plainStrChars s) ≤ 6 * s.toList.length + 2 := by
  have hflat : ∀ cs : List Char, byteLength (cs.flatMap Json.escapePlain) ≤ 6 * cs.length := by
    intro cs
    induction cs with
    | nil => exact le_rfl
    | cons c cs ih =>
      have hc := byteLength_escapePlain c
      rw [List.flatMap_cons, byteLength_append, List.length_cons]
      omega
  have hquotes : ∀ cs : List Char, byteLength ('"' :: (cs ++ ['"'])) = byteLength cs + 2 := by
    intro cs
    have hquote : ('"' : Char).utf8Size = 1 := by decide
    have hend : byteLength ['"'] = 1 := by decide
    rw [byteLength_cons, byteLength_append, hquote, hend]
    omega
  rw [Json.plainStrChars, hquotes]
  have h := hflat s.toList
  omega

/-- The bytes of a dictionary's members, each with a comma before it. -/
def membersBytes (ms : JsonMembers) : ℕ := byteLength (Json.plainMembersText ms)

theorem membersBytes_cons (k : String) (v : Json) (ms : JsonMembers) :
    membersBytes (.cons k v ms) =
      byteLength (Json.plainStrChars k) + byteLength v.plainText + 2 + membersBytes ms := by
  have hcomma : (',' : Char).utf8Size = 1 := by decide
  have hcolon : (':' : Char).utf8Size = 1 := by decide
  rw [membersBytes, Json.plainMembersText, byteLength_cons, byteLength_append, byteLength_cons, byteLength_append, hcomma,
    hcolon, membersBytes]
  omega

theorem byteLength_object (ms : JsonMembers) :
    byteLength (Json.object ms).plainText ≤ membersBytes ms + 2 ∧
      membersBytes ms ≤ byteLength (Json.object ms).plainText := by
  cases ms with
  | nil => exact ⟨by decide, by decide⟩
  | cons k v ms =>
    have hopen : ('{' : Char).utf8Size = 1 := by decide
    have hcolon : (':' : Char).utf8Size = 1 := by decide
    have hclose : byteLength ['}'] = 1 := by decide
    rw [membersBytes_cons, Json.plainText, byteLength_cons, byteLength_append, byteLength_cons, byteLength_append,
      byteLength_append, hopen, hcolon, hclose, membersBytes]
    omega

theorem membersBytes_insert (k : String) (v : Json) (ms : JsonMembers) :
    membersBytes (ms.insert k v) ≤
      membersBytes ms + (byteLength (Json.plainStrChars k) + byteLength v.plainText + 2) := by
  induction ms using JsonMembers.insert.induct k with
  | case1 =>
    rw [JsonMembers.insert, membersBytes_cons]
    omega
  | case2 w ms =>
    rw [JsonMembers.insert, if_pos rfl, membersBytes_cons, membersBytes_cons]
    omega
  | case3 j w ms hne hlt =>
    rw [JsonMembers.insert, if_neg hne, if_pos hlt, membersBytes_cons]
    omega
  | case4 j w ms hne hlt ih =>
    rw [JsonMembers.insert, if_neg hne, if_neg hlt, membersBytes_cons, membersBytes_cons]
    omega

theorem byteLength_short {s : String} (h : s.toList.length ≤ 64) :
    byteLength (Json.str s).plainText ≤ 386 := by
  have hs := byteLength_plainStrChars s
  change byteLength (Json.plainStrChars s) ≤ 386
  omega

variable {k : String} {v : Json} {ms document : JsonMembers} {n : ℕ}

theorem membersBytes_insert_le {m : ℕ}
    (hms : membersBytes ms ≤ n) (hk : k.toList.length ≤ 64) (hv : byteLength v.plainText ≤ m) :
    membersBytes (ms.insert k v) ≤ n + (m + 388) := by
  have h := membersBytes_insert k v ms
  have hkey := byteLength_short hk
  change byteLength (Json.plainStrChars k) ≤ 386 at hkey
  omega

theorem membersBytes_insert_short {text : String}
    (hms : membersBytes ms ≤ n) (hk : k.toList.length ≤ 64) (htext : text.toList.length ≤ 64) :
    membersBytes (ms.insert k (.str text)) ≤ n + 774 :=
  membersBytes_insert_le hms hk (byteLength_short htext)

theorem byteLength_of_lookup {k : String} {v : Json} : ∀ {ms : JsonMembers}, ms.lookup k = some v →
    byteLength v.plainText ≤ membersBytes ms
  | .cons j w ms, h => by
    rw [JsonMembers.lookup] at h
    rw [membersBytes_cons]
    split at h
    · cases h
      omega
    · have ih := byteLength_of_lookup h
      omega

theorem byteLength_list {bound : ℕ} {xs : List Json} (h : ∀ x ∈ xs, byteLength x.plainText ≤ bound) :
    byteLength (Json.list xs).plainText ≤ xs.length * (bound + 1) + 2 := by
  have hcomma : (',' : Char).utf8Size = 1 := by decide
  have hopen : ('[' : Char).utf8Size = 1 := by decide
  have hclose : byteLength [']'] = 1 := by decide
  have hitems : ∀ ys : List Json, (∀ y ∈ ys, byteLength y.plainText ≤ bound) →
      byteLength (Json.plainItemsText (JsonItems.ofList ys)) ≤ ys.length * (bound + 1) := by
    intro ys
    induction ys with
    | nil => exact fun _ => Nat.zero_le _
    | cons y ys ih =>
      intro hys
      have hy := hys y List.mem_cons_self
      have hrest := ih fun z hz => hys z (List.mem_cons_of_mem _ hz)
      rw [JsonItems.ofList, Json.plainItemsText, byteLength_cons, byteLength_append, hcomma, List.length_cons,
        Nat.add_mul]
      omega
  cases xs with
  | nil =>
    have hempty : byteLength (Json.list []).plainText = 2 := by decide
    rw [hempty]
    exact Nat.le_add_left 2 _
  | cons x xs =>
    have hx := h x List.mem_cons_self
    have hrest := hitems xs fun y hy => h y (List.mem_cons_of_mem _ hy)
    rw [Json.list, JsonItems.ofList, Json.plainText, byteLength_cons, byteLength_append, byteLength_append,
      hopen, hclose, List.length_cons, Nat.add_mul]
    omega

/-!
## The text of a bundle

Every part of a bundle is one line, so a reader finds the parts again. An artifact
line is accepted when its document is valid for its row and it is not too long.
-/

/-- The only line feed ends the text. -/
def IsLine (text : List Char) : Prop := ∃ body, '\n' ∉ body ∧ text = body ++ ['\n']

variable {line text raw : List Char} {plan : Plan} {code : String} {row : Json}

theorem readLine_append (h : IsLine line) (rest : List Char) :
    readLine (line ++ rest) = (line, rest) := by
  obtain ⟨body, hbody, rfl⟩ := h
  induction body with
  | nil => rfl
  | cons c cs ih =>
    rw [List.mem_cons, not_or] at hbody
    rw [List.cons_append, List.cons_append, readLine, if_neg (Ne.symm hbody.1), ih hbody.2]

theorem isLine_of_canonicalText (h : canonicalText v = .ok text) :
    IsLine text := by
  obtain ⟨-, -, rfl⟩ := canonicalText_eq_ok.mp h
  exact ⟨v.normal.plainText, Json.newline_not_mem_plainText v, rfl⟩

theorem IsLine.ne_nil (h : IsLine text) : text ≠ [] := by
  obtain ⟨body, -, rfl⟩ := h
  simp

theorem IsLine.byteLength_pos (h : IsLine text) : 1 ≤ byteLength text := by
  obtain ⟨body, -, rfl⟩ := h
  rw [byteLength_append]
  exact Nat.le_add_left 1 _

/-- The artifact that a manifest row lists, with its document. -/
structure RowArtifact (plan : Plan) (code : String) (row : Json) (raw : List Char)
    (document : JsonMembers) : Prop where
  read : readMapping raw = .ok document
  valid : ValidDocument plan code (rowExpected row) raw document
  sha : artifactSha document = rowSha row

theorem RowArtifact.isLine (h : RowArtifact plan code row raw document) : IsLine raw :=
  isLine_of_canonicalText h.valid.text

theorem rowArtifact_iff : RowArtifact plan code row raw document ↔
      readMapping raw = .ok document ∧ ValidDocument plan code (rowExpected row) raw document ∧
        document.lookup "result_artifact_sha256" = some (.str (rowSha row)) := by
  constructor
  · intro h
    have hlookup := h.valid.artifact.2
    refine ⟨h.read, h.valid, ?_⟩
    rw [← h.sha, hlookup]
    rfl
  · intro h
    obtain ⟨hread, hvalid, hlookup⟩ := h
    refine ⟨hread, hvalid, ?_⟩
    rw [artifactSha, textField, hlookup]
    rfl

theorem storedArtifact_eq_ok {files : Files} : storedArtifact files plan code row = .ok raw ↔
      ∃ path document, artifactPath code row = .ok path ∧ files.find? path = some ⟨path, raw⟩ ∧
        RowArtifact plan code row raw document := by
  unfold storedArtifact
  rw [bind_eq_ok]
  constructor
  · intro h
    obtain ⟨path, hpath, h⟩ := h
    split at h
    · cases h
    · rename_i file hfile
      obtain ⟨document, hread, h⟩ := bind_eq_ok.mp h
      obtain ⟨valid, hvalid, h⟩ := bind_eq_ok.mp h
      rw [raiseIf_bind_eq_ok, not_not] at h
      obtain ⟨hsha, h⟩ := h
      cases h
      have hkey : file.path = path := Table.key_of_find? hfile
      have hdocument := (validate_eq_ok.mp hvalid).2
      refine ⟨path, document, hpath, ?_, rowArtifact_iff.mpr ⟨hread, hdocument, hsha⟩⟩
      rw [hfile, ← hkey]
  · intro h
    obtain ⟨path, document, hpath, hfind, hartifact⟩ := h
    obtain ⟨hread, hvalid, hsha⟩ := rowArtifact_iff.mp hartifact
    refine ⟨path, hpath, ?_⟩
    rw [hfind]
    dsimp only
    rw [hread, ok_bind, validate_eq_ok.mpr ⟨rfl, hvalid⟩, ok_bind, hsha,
      raiseIf_neg (fun hne => hne rfl)]
    rfl

theorem receivedArtifact_eq_ok
    {path : List String} : receivedArtifact plan code row line = .ok path ↔
      byteLength line ≤ maxArtifactLineBytes ∧ artifactPath code row = .ok path ∧
        ∃ document, RowArtifact plan code row line document := by
  unfold receivedArtifact
  rw [raiseIf_bind_eq_ok, not_or, not_lt]
  constructor
  · intro h
    obtain ⟨⟨-, hlength⟩, h⟩ := h
    split at h
    · cases h
    · rename_i document hloads
      obtain ⟨valid, hvalid, h⟩ := bind_eq_ok.mp h
      rw [raiseIf_bind_eq_ok, not_not] at h
      obtain ⟨hsha, hpath⟩ := h
      have hdocument := (validate_eq_ok.mp hvalid).2
      exact ⟨hlength, hpath, document,
        rowArtifact_iff.mpr ⟨readMapping_eq_ok.mpr hloads, hdocument, hsha⟩⟩
    · cases h
  · intro h
    obtain ⟨hlength, hpath, document, hartifact⟩ := h
    obtain ⟨hread, hvalid, hsha⟩ := rowArtifact_iff.mp hartifact
    refine ⟨⟨hartifact.isLine.ne_nil, hlength⟩, ?_⟩
    rw [readMapping_eq_ok.mp hread]
    dsimp only
    rw [validate_eq_ok.mpr ⟨rfl, hvalid⟩, ok_bind, hsha, raiseIf_neg (fun hne => hne rfl), ok_bind]
    exact hpath

theorem receivedArtifact_of_long
    (h : maxArtifactLineBytes < byteLength line) : receivedArtifact plan code row line =
      .error (.mcf "SSH candidate artifact line missing or oversized") := by
  unfold receivedArtifact
  rw [raiseIf_pos (.inr h)]
  rfl

def writeSteps (files : List File) : List IngestStep := files.map fun f => .write f.path f.text

/-- The file of an accepted line. -/
def ReceivedFile (plan : Plan) (code : String) (row : Json) (file : File) : Prop :=
  receivedArtifact plan code row file.text = .ok file.path ∧ IsLine file.text

theorem artifactSteps_received {rows : List Json} {files : List File}
    (h : List.Forall₂ (ReceivedFile plan code) rows files) (finish : List Char → List IngestStep)
    (rest : List Char) : artifactSteps plan code finish rows ((files.map File.text).flatten ++ rest) =
      writeSteps files ++ finish rest := by
  induction h with
  | nil => rfl
  | @cons row file rows files hfile _ ih =>
    rw [List.map_cons, List.flatten_cons, List.append_assoc, artifactSteps,
      readLine_append hfile.2]
    dsimp only
    rw [hfile.1, ih]
    rfl

end TradingLab.Factory
