import TradingLab.Notifications.Runner
import TradingLab.Json.PlainRoundTrip

/-!
# No delivery is lost

A state file that was written is read back as the snapshot that was written. As
long as every invocation replaces a file that still holds what the invocation has
read, every record that was written stays in the file.
-/

namespace TradingLab.Notifications

open List Json

theorem strField_of_get? {v : Json} {key text : String} (h : v.get? key = some (.str text)) :
    strField v key = .ok text := by
  simp only [strField, h]
  rfl

theorem natField_of_get? {v : Json} {key : String} {n : ℕ} (h : v.get? key = some (.int n)) :
    natField v key = .ok n := by
  have hn : (0 : ℤ) ≤ n := Int.natCast_nonneg n
  simp only [natField, h, Option.bind_some, int?, if_pos hn, Int.toNat_natCast]

theorem asRecord_eq (record : DeliveryRecord) : record.asRecord = .object
    (.cons "attempts" (.int record.attempts) (.cons "delivery_id" (.str record.deliveryId)
    (.cons "formatted_sha256" (.str record.formattedSha256)
    (.cons "notification_sha256" (.str record.notificationSha256)
    (.cons "receipt_sha256" (.str record.receiptSha256)
    (.cons "telegram_message_id" (.int record.telegramMessageId)
    (.cons "total_wait_seconds" (.int record.totalWaitSeconds) .nil))))))) := by
  simp [DeliveryRecord.asRecord, dict, JsonMembers.insert, keyLt]

theorem deliveryRecordFromRecord_asRecord {record : DeliveryRecord} (h : record.Valid) :
    deliveryRecordFromRecord record.asRecord = .ok record := by
  have hcheck : record.check = .ok record := if_pos h
  rw [asRecord_eq]
  unfold deliveryRecordFromRecord expectKeys
  dsimp only
  rw [raiseIf_neg (not_not.mpr (by rfl)), ok_bind,
    @strField_of_get? _ _ record.deliveryId (by rfl), ok_bind,
    @strField_of_get? _ _ record.notificationSha256 (by rfl), ok_bind,
    @strField_of_get? _ _ record.formattedSha256 (by rfl), ok_bind,
    @strField_of_get? _ _ record.receiptSha256 (by rfl), ok_bind,
    natField_of_get? (n := record.telegramMessageId) (by rfl), ok_bind,
    natField_of_get? (n := record.attempts) (by rfl), ok_bind,
    natField_of_get? (n := record.totalWaitSeconds) (by rfl), ok_bind]
  exact hcheck

theorem mapM_asRecord {records : List DeliveryRecord} (h : ∀ record ∈ records, record.Valid) :
    (records.map DeliveryRecord.asRecord).mapM deliveryRecordFromRecord = .ok records := by
  induction records with
  | nil => rfl
  | cons record records ih =>
    rw [map_cons, mapM_cons, deliveryRecordFromRecord_asRecord (h _ mem_cons_self),
      ok_bind, ih fun other hother => h other (mem_cons_of_mem _ hother), ok_bind]
    rfl

theorem state_asRecord_eq (state : DeliveryState) : state.asRecord = .object (.cons "records"
    (.array (.ofList (state.records.map DeliveryRecord.asRecord)))
      (.cons "schema_version" (.int deliverySchemaVersion) .nil)) := by
  simp [DeliveryState.asRecord, dict, JsonMembers.insert, keyLt, list]

theorem deliveryStateFromRecord_asRecord (state : DeliveryState) :
    deliveryStateFromRecord state.asRecord = .ok state := by
  have hsame : ¬ (int deliverySchemaVersion).same (.int deliverySchemaVersion) = false := by
    decide
  have hstate : DeliveryState.ofRecords state.records = .ok state := dif_pos state.valid
  rw [state_asRecord_eq]
  simp [deliveryStateFromRecord, expectKeys, JsonMembers.keys, get?, JsonMembers.lookup,
    hsame, state.valid.length, mapM_asRecord state.valid.each, hstate]

theorem held_asRecord (state : DeliveryState) :
    state.asRecord.Held ∧ state.asRecord.hasNonFinite = false := by
  have hrecord : ∀ record : DeliveryRecord,
      record.asRecord.Held ∧ record.asRecord.hasNonFinite = false := by
    intro record
    constructor
    · apply held_dict
      simp [Json.Held]
    · apply hasNonFinite_dict
      simp [hasNonFinite]
  have hrecords : ∀ v ∈ state.records.map DeliveryRecord.asRecord, v.Held ∧ v.hasNonFinite = false := by
    intro v hv
    obtain ⟨record, -, rfl⟩ := mem_map.mp hv
    exact hrecord record
  constructor
  · apply held_dict
    simp [Json.Held, held_list fun v hv => (hrecords v hv).1]
  · apply hasNonFinite_dict
    simp [hasNonFinite, hasNonFinite_list fun v hv => (hrecords v hv).2]

/-- A state file that was written is read back. -/
theorem loadDeliveryState_jsonText {state : DeliveryState}
    (hshort : state.asRecord.hasLongInteger = false)
    (hsize : (String.ofList (jsonText state.asRecord)).utf8ByteSize ≤ maxDeliveryStateBytes) :
    loadDeliveryState (some (jsonText state.asRecord)) = .ok state := by
  have hread := (held_asRecord state).1.readable (held_asRecord state).2 hshort
  have hloads : loads (String.ofList (jsonText state.asRecord)) = some state.asRecord := by
    have h : loads (String.ofList (textWith asciiQuoting state.asRecord ++ ['\n'])) =
        some state.asRecord := loads_textWith hread rfl nofun
    rwa [textWith_ascii] at h
  have hbound : ¬ (jsonText state.asRecord = [] ∨
      maxDeliveryStateBytes < (String.ofList (jsonText state.asRecord)).utf8ByteSize) := by
    rw [not_or, not_lt]
    exact ⟨append_ne_nil_of_right_ne_nil _ (cons_ne_nil _ _), hsize⟩
  have hsame : ¬ jsonText state.asRecord ≠ jsonText state.asRecord := not_not.mpr rfl
  unfold loadDeliveryState
  dsimp only
  rw [raiseIf_neg hbound, ok_bind, hloads]
  dsimp only
  rw [deliveryStateFromRecord_asRecord]
  dsimp only
  rw [raiseIf_neg hsame]
  rfl

theorem writeDeliveryState_file {storage : Storage} {state : DeliveryState} {file : StateFile} :
    (writeDeliveryState storage state file).2 = file ∨
      loadDeliveryState (writeDeliveryState storage state file).2 = .ok state := by
  unfold writeDeliveryState
  split_ifs with hlong hsize
  · exact .inl rfl
  · exact .inl rfl
  · rw [Bool.not_eq_true] at hlong
    have hload := loadDeliveryState_jsonText hlong (not_lt.mp hsize)
    cases storage with
    | done => exact .inr hload
    | refused replaced =>
      cases replaced with
      | true => exact .inr hload
      | false => exact .inl rfl

theorem writeDeliveryState_ok {storage : Storage} {state : DeliveryState} {file written : StateFile}
    (h : writeDeliveryState storage state file = (.ok (), written)) :
    loadDeliveryState written = .ok state := by
  unfold writeDeliveryState at h
  split_ifs at h with hlong hsize
  · cases h
  · cases h
  · rw [Bool.not_eq_true] at hlong
    have hload := loadDeliveryState_jsonText hlong (not_lt.mp hsize)
    cases storage with
    | done =>
      cases h
      exact hload
    | refused replaced => cases replaced <;> cases h

/-- The record is in the snapshot that the file holds. -/
def InFile (file : StateFile) (record : DeliveryRecord) : Prop :=
  ∃ state, loadDeliveryState file = .ok state ∧ record ∈ state.records

/-- The invocation has written this record. -/
def Phase.Wrote (record : DeliveryRecord) : Phase → Prop
  | .written result => result.status = .delivered ∧ result.record = record
  | .ended (.ok reply) => reply.code = .delivered ∧ reply.record = record
  | _ => False

/-- What an invocation holds comes from its notification and from what it has read. -/
def Invocation.Sound (invocation : Invocation) : Phase → Prop
  | .loaded message _ => invocation.source = .ok message
  | .sent state result => result.status = .delivered ∧
      appendRecord state result.record = .ok result.state ∧
        ∃ message, invocation.source = .ok message ∧
          result.record.deliveryId = deliveryIdentity message
  | .written result => result.status = .delivered ∧ ∃ message, invocation.source = .ok message ∧
      result.record.deliveryId = deliveryIdentity message
  | .ended (.ok reply) => ∃ message, invocation.source = .ok message ∧
      reply.record.deliveryId = deliveryIdentity message
  | _ => True

section
variable {policySha256 : String}

theorem send_of_new {invocation : Invocation} {message : NotificationMessage}
    {state : DeliveryState} {result : GuardedDeliveryResult}
    (hnew : state.find (deliveryIdentity message) = none)
    (h : invocation.send policySha256 message state = .ok result) :
    result.status = .delivered ∧ result.record.deliveryId = deliveryIdentity message ∧
      appendRecord state result.record = .ok result.state := by
  unfold Invocation.send at h
  split_ifs at h with hcredentials
  · rw [mapError_eq_ok] at h
    unfold guardedSend at h
    rw [hnew] at h
    dsimp only at h
    rw [raiseIf_bind_eq_ok] at h
    exact sendLoop_eq_ok h.2

/-- A step of an invocation keeps the records of the file, if it replaces what it has read. -/
theorem advance_keeps {invocation : Invocation} {phase : Phase} {file : StateFile}
    (hsound : invocation.Sound phase)
    (hcurrent : ∀ state result, phase = .sent state result → loadDeliveryState file = .ok state) :
    invocation.Sound (invocation.advance policySha256 phase file).1 ∧
      (∀ record, InFile file record →
        InFile (invocation.advance policySha256 phase file).2 record) ∧
      ∀ record, (invocation.advance policySha256 phase file).1.Wrote record →
        phase.Wrote record ∨ InFile (invocation.advance policySha256 phase file).2 record := by
  have hfinish : ∀ reply : NotifierReply, (∃ message, invocation.source = .ok message ∧
      reply.record.deliveryId = deliveryIdentity message) →
        invocation.Sound (.ended (invocation.finish reply)) := by
    intro reply hreply
    unfold Invocation.finish
    split_ifs
    · exact hreply
    · exact trivial
  have hended : ∀ (reply : NotifierReply) (record : DeliveryRecord),
      (Phase.ended (invocation.finish reply)).Wrote record →
        reply.code = .delivered ∧ reply.record = record := by
    intro reply record h
    unfold Invocation.finish at h
    split_ifs at h
    · exact h
    · exact h.elim
  cases phase with
  | begun =>
    rw [Invocation.advance]
    split
    · exact ⟨trivial, fun _ => id, fun _ h => h.elim⟩
    · rename_i message hsource
      split
      · exact ⟨trivial, fun _ => id, fun _ h => h.elim⟩
      · exact ⟨hsource, fun _ => id, fun _ h => h.elim⟩
  | loaded message state =>
    rw [Invocation.advance]
    split
    · rename_i existing hfind
      have hid := (find_eq_some.mp hfind).2
      refine ⟨hfinish _ ⟨message, hsound, hid⟩, fun _ => id, fun record h => ?_⟩
      cases (hended _ _ h).1
    · rename_i hnew
      split
      · exact ⟨trivial, fun _ => id, fun _ h => h.elim⟩
      · rename_i result hsend
        obtain ⟨hstatus, hid, happend⟩ := send_of_new hnew hsend
        exact ⟨⟨hstatus, happend, message, hsound, hid⟩, fun _ => id, fun _ h => h.elim⟩
  | sent state result =>
    obtain ⟨hstatus, happend, hmessage⟩ := hsound
    have hload := hcurrent state result rfl
    -- the new snapshot has every record of the file, and the new one
    have hgrow : ∀ written, (written = file ∨ loadDeliveryState written = .ok result.state) →
        ∀ record, InFile file record → InFile written record := by
      intro written hwritten record hrecord
      rcases hwritten with rfl | hwritten
      · exact hrecord
      · obtain ⟨held, hheld, hmem⟩ := hrecord
        rw [hload] at hheld
        cases hheld
        exact ⟨_, hwritten, (mem_appendRecord happend).mpr (.inl hmem)⟩
    have hfile : (writeDeliveryState invocation.storage result.state file).2 = file ∨
        loadDeliveryState (writeDeliveryState invocation.storage result.state file).2 =
          .ok result.state := writeDeliveryState_file
    rw [Invocation.advance, if_pos hstatus]
    split
    · rename_i error written hwrite
      rw [hwrite] at hfile
      exact ⟨trivial, hgrow written hfile, fun _ h => h.elim⟩
    · rename_i written hwrite
      rw [hwrite] at hfile
      refine ⟨⟨hstatus, hmessage⟩, hgrow written hfile, fun record h => .inr ?_⟩
      exact ⟨_, writeDeliveryState_ok hwrite, (mem_appendRecord happend).mpr (.inr h.2.symm)⟩
  | written result =>
    refine ⟨hfinish _ hsound.2, fun _ => id, fun record h => .inl ?_⟩
    exact ⟨hsound.1, (hended _ _ h).2⟩
  | ended outcome => exact ⟨hsound, fun _ => id, fun _ h => .inl h⟩

/-- If the `i`-th invocation is about to replace the state file, then the file still holds the
snapshot that the invocation has read. -/
def Notifiers.Current (w : Notifiers) (i : ℕ) : Prop :=
  ∀ invocation state result, w.invocations[i]? = some (invocation, .sent state result) →
    loadDeliveryState w.file = .ok state

variable (policySha256) in
/-- No invocation replaces the state file between another's reading and replacing it. -/
def Notifiers.Undisturbed : Notifiers → List ℕ → Prop
  | _, [] => True
  | w, i :: schedule => w.Current i ∧ (w.step policySha256 i).Undisturbed schedule

/-- Every invocation is sound, and what was written is in the file. -/
structure Notifiers.Kept (w : Notifiers) : Prop where
  sound : ∀ s ∈ w.invocations, s.1.Sound s.2
  inFile : ∀ s ∈ w.invocations, ∀ record, s.2.Wrote record → InFile w.file record

theorem kept_start (file : StateFile) (invocations : List Invocation) :
    (Notifiers.start file invocations).Kept := by
  have hphase : ∀ s ∈ (Notifiers.start file invocations).invocations, s.2 = .begun := by
    intro s hs
    obtain ⟨invocation, -, rfl⟩ := mem_map.mp hs
    rfl
  constructor
  · intro s hs
    rw [hphase s hs]
    exact trivial
  · intro s hs record h
    rw [hphase s hs] at h
    exact h.elim

theorem Notifiers.Kept.step {w : Notifiers} (h : w.Kept) {i : ℕ} (hcurrent : w.Current i) :
    (w.step policySha256 i).Kept := by
  unfold Notifiers.step
  split
  · exact h
  · rename_i invocation phase hi
    have hmem := mem_of_getElem? hi
    obtain ⟨hsound, hgrow, hwrote⟩ := @advance_keeps policySha256 _ _ _ (h.sound _ hmem)
      fun state result hphase => hcurrent invocation state result (hphase ▸ hi)
    constructor
    · intro s hs
      rcases mem_or_eq_of_mem_set hs with hs | rfl
      · exact h.sound s hs
      · exact hsound
    · intro s hs record hrecord
      rcases mem_or_eq_of_mem_set hs with hs | rfl
      · exact hgrow record (h.inFile s hs record hrecord)
      · rcases hwrote record hrecord with hbefore | hnow
        · exact hgrow record (h.inFile _ hmem record hbefore)
        · exact hnow

theorem Notifiers.Kept.run {w : Notifiers} (h : w.Kept) {schedule : List ℕ}
    (hundisturbed : w.Undisturbed policySha256 schedule) : (w.run policySha256 schedule).Kept := by
  induction schedule generalizing w with
  | nil => exact h
  | cons i schedule ih => exact ih (h.step hundisturbed.1) hundisturbed.2

theorem notifierRun_of_inFile {file : StateFile} {record : DeliveryRecord} (h : InFile file record)
    {later : Invocation} {message : NotificationMessage} (hsource : later.source = .ok message)
    (hid : record.deliveryId = deliveryIdentity message) :
    ∃ state, notifierRun policySha256 later file =
      (later.finish (duplicateReply record state), file) := by
  obtain ⟨state, hload, hmem⟩ := h
  have hfind := find_eq_some.mpr ⟨hmem, hid⟩
  refine ⟨state, ?_⟩
  simp only [notifierRun, hsource, hload, hfind]

end

def sampleDigest (c : Char) : String := String.ofList (List.replicate 64 c)

/-- A notification with a given digest. -/
def sampleMessage (c : Char) (h : Sha256.isHexDigest (sampleDigest c) = true) : NotificationMessage :=
  ⟨sampleDigest c, sampleDigest c, h, h⟩

def sampleReceipt (c : Char) (h : Sha256.isHexDigest (sampleDigest c) = true) :
    TelegramDeliveryReceipt where
  notificationSha256 := sampleDigest c
  formattedSha256 := sampleDigest c
  telegramMessageId := 1
  policySha256 := sampleDigest 'a'
  valid := ⟨h, h, Nat.one_pos, by decide⟩

/-- An invocation that nothing disturbs. -/
def sampleInvocation (c : Char) (h : Sha256.isHexDigest (sampleDigest c) = true) : Invocation where
  source := .ok (sampleMessage c h)
  credentials := true
  reply := fun _ => .ok (sampleReceipt c h)
  sourceUnchanged := true
  storage := .done

section
variable {c : Char} (h : Sha256.isHexDigest (sampleDigest c) = true)

def sampleRecord : DeliveryRecord := deliveredRecord (sampleMessage c h) (sampleReceipt c h) 1 []

theorem valid_sampleRecord : (sampleRecord h).Valid where
  deliveryId := Sha256.isHexDigest_hexDigest _
  notificationSha256 := h
  formattedSha256 := h
  receiptSha256 := Sha256.isHexDigest_hexDigest _
  telegramMessageId := Nat.one_pos
  attempts := by simp [sampleRecord, deliveredRecord, maxAttempts]
  totalWaitSeconds := Nat.zero_le _

def sampleState : DeliveryState where
  records := [sampleRecord h]
  valid := by
    constructor
    · simp [maxDeliveryRecords]
    · simp [valid_sampleRecord h]
    · simp
    · simp

def sampleSent : GuardedDeliveryResult := ⟨.delivered, sampleRecord h, 1, [], sampleState h⟩

theorem send_sample : (sampleInvocation c h).send (sampleDigest 'a') (sampleMessage c h) .empty =
    .ok (sampleSent h) := by
  have hreceipt : validateReceipt (sampleDigest 'a') (sampleMessage c h) (sampleReceipt c h) =
      .ok (sampleReceipt c h) := by
    simp [validateReceipt, sampleMessage, sampleReceipt]
  have hrecord : (deliveredRecord (sampleMessage c h) (sampleReceipt c h) 1 []).check =
      .ok (sampleRecord h) := if_pos (valid_sampleRecord h)
  have happend : appendRecord .empty (sampleRecord h) = .ok (sampleState h) := by
    have hstate : DeliveryState.ofRecords [sampleRecord h] = .ok (sampleState h) :=
      dif_pos (sampleState h).valid
    simp [appendRecord, DeliveryState.empty, maxDeliveryRecords, hstate]
  have hloop : sendLoop (sampleDigest 'a') (sampleMessage c h) .empty
      (sampleInvocation c h).reply maxAttempts 1 [] = .ok (sampleSent h) := by
    simp [sendLoop, maxAttempts, sampleInvocation, hreceipt, hrecord, happend]
    rfl
  have hnew : DeliveryState.empty.find (deliveryIdentity (sampleMessage c h)) = none := rfl
  have hroom : ¬ maxDeliveryRecords ≤ DeliveryState.empty.records.length := by decide
  have hguarded : guardedSend (sampleDigest 'a') (sampleMessage c h) .empty
      (sampleInvocation c h).reply = .ok (sampleSent h) := by
    unfold guardedSend
    rw [hnew]
    dsimp only
    rw [raiseIf_neg hroom, ok_bind, hloop]
  have hcredentials : (sampleInvocation c h).credentials = true := rfl
  rw [Invocation.send, if_pos hcredentials, hguarded]
  rfl

def sampleFile : StateFile := some (jsonText (sampleState h).asRecord)

theorem length_strChars (s : String) : (Json.strChars s).length ≤ 12 * s.toList.length + 2 := by
  have hchar : ∀ c : Char, (escapeChar c).length ≤ 12 := by
    intro c
    unfold escapeChar
    split_ifs <;> simp [unitChars]
  have hflat : ∀ cs : List Char, (cs.flatMap escapeChar).length ≤ 12 * cs.length := by
    intro cs
    induction cs with
    | nil => exact le_rfl
    | cons c cs ih =>
      have hc := hchar c
      simp only [flatMap_cons, length_append, length_cons]
      omega
  have h := hflat s.toList
  simp only [strChars, length_cons, length_append, length_nil]
  omega

theorem utf8Len_le (cs : List Char) : String.utf8Len cs ≤ 4 * cs.length := by
  induction cs with
  | nil => exact le_rfl
  | cons c cs ih =>
    have hc := c.utf8Size_le_four
    simp only [String.utf8Len_cons, length_cons]
    omega

theorem length_of_hexDigest {s : String} (hs : Sha256.isHexDigest s = true) : s.toList.length = 64 := by
  simp only [Sha256.isHexDigest, Bool.and_eq_true, beq_iff_eq] at hs
  exact hs.1

/-- The text of one record is short. -/
theorem short_sampleState : (sampleState h).asRecord.hasLongInteger = false ∧
    (String.ofList (jsonText (sampleState h).asRecord)).utf8ByteSize ≤ maxDeliveryStateBytes := by
  have hvalid := valid_sampleRecord h
  have htext : ∀ s : String, Sha256.isHexDigest s = true → (strChars s).length ≤ 770 := by
    intro s hs
    have hlength := length_of_hexDigest hs
    have hchars := length_strChars s
    omega
  have hdelivery := htext _ hvalid.deliveryId
  have hnotification := htext _ hvalid.notificationSha256
  have hformatted := htext _ hvalid.formattedSha256
  have hreceipt := htext _ hvalid.receiptSha256
  have hsize := utf8Len_le (jsonText (sampleState h).asRecord)
  have hmessage : (sampleRecord h).telegramMessageId = 1 := rfl
  have hattempts : (sampleRecord h).attempts = 1 := rfl
  have hwait : (sampleRecord h).totalWaitSeconds = 0 := rfl
  have hlength : (jsonText (sampleState h).asRecord).length ≤ 10000 := by
    rw [jsonText, state_asRecord_eq]
    have hkeys : ∀ k ∈ ["records", "attempts", "delivery_id", "formatted_sha256",
        "notification_sha256", "receipt_sha256", "telegram_message_id", "total_wait_seconds",
        "schema_version"], (strChars k).length ≤ 100 := by decide
    have hnumbers : (intChars 1).length = 1 ∧ (intChars 0).length = 1 ∧
        (intChars deliverySchemaVersion).length = 1 := by decide
    simp only [forall_mem_cons] at hkeys
    simp only [sampleState, asRecord_eq, JsonItems.ofList, Json.text, itemsText,
      membersText, hmessage, hattempts, hwait, map_cons, map_nil, length_append,
      length_cons, length_nil, Nat.cast_one, Nat.cast_zero]
    omega
  constructor
  · rw [state_asRecord_eq]
    have hdigits : (Nat.toDigits 10 1).length ≤ maxIntDigits ∧ ¬ maxIntDigits = 0 := by
      decide
    simp [sampleState, asRecord_eq, JsonItems.ofList, hasLongInteger,
      membersHaveLongInteger, itemsHaveLongInteger, hmessage, hattempts, hwait,
      deliverySchemaVersion, hdigits]
  · rw [String.utf8ByteSize_ofList]
    unfold maxDeliveryStateBytes
    omega

theorem write_sample (file : StateFile) : writeDeliveryState .done (sampleState h) file =
    (.ok (), sampleFile h) := by
  have hlong : ¬ (sampleState h).asRecord.hasLongInteger = true := by
    rw [(short_sampleState h).1]
    exact Bool.false_ne_true
  have hsize : ¬ maxDeliveryStateBytes <
      (String.ofList (jsonText (sampleState h).asRecord)).utf8ByteSize :=
    not_lt.mpr (short_sampleState h).2
  rw [writeDeliveryState, if_neg hlong, if_neg hsize]
  rfl

theorem load_sampleFile : loadDeliveryState (sampleFile h) = .ok (sampleState h) :=
  writeDeliveryState_ok (write_sample h none)

theorem advance_sample (file : StateFile) (state : DeliveryState) :
    (sampleInvocation c h).advance (sampleDigest 'a') .begun none =
        (.loaded (sampleMessage c h) .empty, none) ∧
      (sampleInvocation c h).advance (sampleDigest 'a') (.loaded (sampleMessage c h) .empty) file =
        (.sent .empty (sampleSent h), file) ∧
      (sampleInvocation c h).advance (sampleDigest 'a') (.sent state (sampleSent h)) file =
        (.written (sampleSent h), sampleFile h) ∧
      (sampleInvocation c h).advance (sampleDigest 'a') (.written (sampleSent h)) file =
        (.ended (.ok (deliveredReply (sampleSent h))), file) := by
  have hnew : DeliveryState.empty.find (deliveryIdentity (sampleMessage c h)) = none := rfl
  have hwrite : writeDeliveryState (sampleInvocation c h).storage (sampleSent h).state file =
      (.ok (), sampleFile h) := write_sample h file
  refine ⟨rfl, ?_, ?_, rfl⟩
  · rw [Invocation.advance, hnew]
    dsimp only
    rw [send_sample h]
  · have hstatus : (sampleSent h).status = .delivered := rfl
    rw [Invocation.advance, if_pos hstatus, hwrite]

end

theorem sampleRecords_ne : (sampleRecord (c := 'b') (by decide)).deliveryId ≠
    (sampleRecord (c := 'a') (by decide)).deliveryId := by
  decide +kernel

end TradingLab.Notifications
