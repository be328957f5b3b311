import TradingLab.Decimal.Numeral
import TradingLab.Json.Parser
import TradingLab.Notifications.Delivery

/-!
# The transport of a notification

One message is sent over one connection. What fails before the request is a
network error; what fails from the request on leaves open whether the message
was sent. Only a refusal for the rate says when to try again.
-/

/-!
## Integers of any script

The text of an integer may have blanks around it, a sign, and single underscores
between its digits, which may be of any script. A text with too many digits is
not read.
-/

namespace Integers

def maxDigits : ℕ := 4300

def isBlank (c : Char) : Bool := (9 ≤ c.toNat && c.toNat ≤ 13) || c == ' '

/-- The digits of a text in which an underscore stands between two digits only. -/
def takeDigits (afterDigit : Bool) : List Char → Option (List Char)
  | [] => if afterDigit then some [] else none
  | c :: cs =>
      if c = '_' then (if afterDigit then takeDigits false cs else none)
      else if c.isDigit then (takeDigits true cs).map (c :: ·)
      else none

def trim (cs : List Char) : List Char :=
  (((cs.dropWhile isBlank).reverse).dropWhile isBlank).reverse

/-- The integer of a text. -/
def read (text : String) : Option ℤ := do
  let cs ← text.toList.mapM Decimal.asciiChar?
  let (negative, body) := Decimal.splitSign (trim cs)
  let digits ← takeDigits false body
  if maxDigits < digits.length then none
  else return if negative then -digitsValue digits else digitsValue digits

end Integers

namespace TradingLab.Notifications

def maxResponseBytes : ℕ := 16384
def maxRetryAfterSeconds : ℕ := 86400

/-- What an operation of the connection does. -/
inductive NetworkOutcome (α : Type) where
  | done (value : α)
  /-- An operating system error, a timeout or an HTTP error. -/
  | fault
  /-- Any other exception. -/
  | escaped

structure Body where
  size : ℕ
  /-- The characters, when the bytes are UTF-8. -/
  text : Option (List Char)
  /-- An integer of too many digits, or too deep a nesting, for the reader. -/
  unreadable : Bool

structure HttpResponse where
  /-- The status, when it is an integer. -/
  status : Option ℤ
  contentLength : Option String
  body : NetworkOutcome Body

structure Network where
  /-- The request body is within its bounds. -/
  bodyFits : Bool
  /-- The default context verifies the host and its certificate. -/
  verified : Bool
  connect : NetworkOutcome Unit
  request : NetworkOutcome Unit
  response : NetworkOutcome HttpResponse
  close : NetworkOutcome Unit

inductive SenderFailure where
  | transport (error : TelegramTransportError)
  | other
deriving DecidableEq

/-- What has gone over the connection: whether the request was begun, and the status that came
back. -/
structure Wire where
  requested : Bool
  status : Option ℤ
deriving DecidableEq

def Wire.idle : Wire := ⟨false, none⟩

abbrev Transmission (α : Type) : Type := Method Wire SenderFailure α

def raiseTransport {α : Type} (error : TelegramTransportError) : Except SenderFailure α :=
  .error (.transport error)

/-- The value of an operation; what it raises is a given transport error. -/
def NetworkOutcome.get {α : Type} (error : TelegramTransportError) :
    NetworkOutcome α → Except SenderFailure α
  | .done value => .ok value
  | .fault => raiseTransport error
  | .escaped => .error .other

def checkDeclaredLength (contentLength : Option String) : Except SenderFailure Unit :=
  match contentLength with
  | none => .ok ()
  | some header =>
      match Integers.read header with
      | none => raiseTransport .responseInvalid
      | some declared => do
          raiseIf (declared < 0) (.transport .responseInvalid)
          raiseIf ((maxResponseBytes : ℤ) < declared) (.transport .responseTooLarge)

def readBoundedJson (response : HttpResponse) : Except SenderFailure JsonMembers := do
  checkDeclaredLength response.contentLength
  let raw ← response.body.get .networkAmbiguous
  raiseIf (maxResponseBytes < raw.size) (.transport .responseTooLarge)
  match raw.text with
  | none => raiseTransport .responseInvalid
  | some text => do
      raiseIf (raw.unreadable = true) .other
      match Json.loads (String.ofList text) with
      | some (.object payload) => .ok payload
      | _ => raiseTransport .responseInvalid

/-- The wait that a refusal for the rate asks for. -/
def retryAfter (payload : JsonMembers) : Option ℕ :=
  match payload.lookup "parameters" with
  | some (.object parameters) =>
      match parameters.lookup "retry_after" with
      | some (.int seconds) =>
          if 1 ≤ seconds ∧ seconds ≤ maxRetryAfterSeconds then some seconds.toNat else none
      | _ => none
  | _ => none

/-- The message identifier of an acknowledgement. -/
def messageId (payload : JsonMembers) : Option ℕ :=
  match payload.lookup "result" with
  | some (.object result) =>
      match result.lookup "message_id" with
      | some (.int n) => if 0 < n then some n.toNat else none
      | _ => none
  | _ => none

def readSuccessResponse (response : HttpResponse) : Except SenderFailure ℕ :=
  match response.status with
  | none => raiseTransport .responseInvalid
  | some 429 => do
      let payload ← readBoundedJson response
      match retryAfter payload with
      | none => raiseTransport .responseInvalid
      | some seconds => raiseTransport (.rateLimited seconds)
  | some status => do
      raiseIf (status ≠ 200) (.transport .httpStatus)
      let payload ← readBoundedJson response
      raiseIf (payload.lookup "ok" ≠ some (.bool true)) (.transport .apiRejected)
      match messageId payload with
      | none => raiseTransport .responseInvalid
      | some n => .ok n

/-- The part after the connection exists. -/
def exchange (network : Network) : Transmission ℕ := do
  Method.modify fun wire => { wire with requested := true }
  Method.check (network.request.get .networkAmbiguous)
  let response ← Method.check (network.response.get .networkAmbiguous)
  Method.modify fun wire => { wire with status := response.status }
  Method.check (readSuccessResponse response)

/-- The connection is closed at the end; only an unexpected exception of that is seen. -/
def closing {α : Type} (network : Network) (m : Transmission α) : Transmission α := fun wire =>
  match network.close with
  | .escaped => (.error .other, (m.call wire).2)
  | _ => m.call wire

def receiptOf (policySha256 : String) (message : NotificationMessage) (n : ℕ) :
    Except SenderFailure TelegramDeliveryReceipt :=
  if h : Sha256.isHexDigest policySha256 = true ∧ 0 < n then
    .ok ⟨message.messageSha256, message.formattedSha256, n, policySha256,
      message.valid.1, message.valid.2, h.2, h.1⟩
  else raiseTransport .responseInvalid

/-- Send exactly one message. -/
def sendFormattedNotification (policySha256 : String) (message : NotificationMessage)
    (network : Network) : Transmission TelegramDeliveryReceipt := do
  Method.check (raiseIf (network.bodyFits = false) (.transport .requestInvalid))
  Method.check (raiseIf (network.verified = false) (.transport .networkError))
  Method.check (network.connect.get .networkError)
  let n ← closing network (exchange network)
  Method.check (receiptOf policySha256 message n)

/-- An error after which an attempt is repeated. -/
def SenderFailure.Retryable : SenderFailure → Prop
  | .transport .networkError => True
  | .transport (.rateLimited _) => True
  | _ => False

variable {e : SenderFailure}

theorem get_not_networkError {α : Type} {outcome : NetworkOutcome α}
    (h : outcome.get .networkAmbiguous = .error e) : ¬ e.Retryable := by
  cases outcome with
  | done value => cases h
  | fault =>
    cases h
    exact id
  | escaped =>
    cases h
    exact id

theorem checkDeclaredLength_not_retryable {header : Option String}
    (h : checkDeclaredLength header = .error e) : ¬ e.Retryable := by
  unfold checkDeclaredLength at h
  split at h
  · cases h
  · split at h
    · cases h
      exact id
    · rw [bind_eq_error] at h
      rcases h with h | ⟨_, _, h⟩
      · rw [← (raiseIf_eq_error.mp h).2]
        exact id
      · rw [← (raiseIf_eq_error.mp h).2]
        exact id

variable {response : HttpResponse} {network : Network} {wire : Wire} {policySha256 : String}
  {message : NotificationMessage}

theorem readBoundedJson_not_retryable
    (h : readBoundedJson response = .error e) : ¬ e.Retryable := by
  unfold readBoundedJson at h
  rcases bind_eq_error.mp h with h | ⟨_, _, h⟩
  · exact checkDeclaredLength_not_retryable h
  rcases bind_eq_error.mp h with h | ⟨raw, _, h⟩
  · exact get_not_networkError h
  rcases bind_eq_error.mp h with h | ⟨_, _, h⟩
  · rw [← (raiseIf_eq_error.mp h).2]
    exact id
  split at h
  · cases h
    exact id
  · rcases bind_eq_error.mp h with h | ⟨_, _, h⟩
    · rw [← (raiseIf_eq_error.mp h).2]
      exact id
    · split at h
      · cases h
      · cases h
        exact id

theorem readSuccessResponse_retryable
    (h : readSuccessResponse response = .error e) (hretry : e.Retryable) :
    response.status = some 429 := by
  unfold readSuccessResponse at h
  split at h
  · cases h
    exact hretry.elim
  · assumption
  · rcases bind_eq_error.mp h with h | ⟨_, _, h⟩
    · rw [← (raiseIf_eq_error.mp h).2] at hretry
      exact hretry.elim
    rcases bind_eq_error.mp h with h | ⟨payload, _, h⟩
    · exact (readBoundedJson_not_retryable h hretry).elim
    rcases bind_eq_error.mp h with h | ⟨_, _, h⟩
    · rw [← (raiseIf_eq_error.mp h).2] at hretry
      exact hretry.elim
    split at h
    · cases h
      exact hretry.elim
    · cases h

theorem exchange_retryable {wire' : Wire}
    (h : (exchange network).call wire = (.error e, wire')) (hretry : e.Retryable) :
    wire'.status = some 429 := by
  unfold exchange at h
  rw [Method.call_bind, Method.call_modify] at h
  dsimp only at h
  rcases Method.call_check_bind_eq_error.mp h with ⟨hrequest, _⟩ | ⟨_, _, h⟩
  · exact (get_not_networkError hrequest hretry).elim
  rcases Method.call_check_bind_eq_error.mp h with ⟨hresponse, _⟩ | ⟨response, _, h⟩
  · exact (get_not_networkError hresponse hretry).elim
  rw [Method.call_bind, Method.call_modify] at h
  dsimp only at h
  rw [Method.call_check, Prod.mk.injEq] at h
  obtain ⟨hread, rfl⟩ := h
  exact readSuccessResponse_retryable hread hretry

theorem receiptOf_not_retryable {n : ℕ}
    (h : receiptOf policySha256 message n = .error e) : ¬ e.Retryable := by
  unfold receiptOf at h
  split at h
  · cases h
  · cases h
    exact id

theorem unsent_of_retryable
    (h : (sendFormattedNotification policySha256 message network).call .idle = (.error e, wire))
    (hretry : e.Retryable) : wire.requested = false ∨ wire.status = some 429 := by
  unfold sendFormattedNotification at h
  rcases Method.call_check_bind_eq_error.mp h with ⟨_, rfl⟩ | ⟨_, _, h⟩
  · exact .inl rfl
  rcases Method.call_check_bind_eq_error.mp h with ⟨_, rfl⟩ | ⟨_, _, h⟩
  · exact .inl rfl
  rcases Method.call_check_bind_eq_error.mp h with ⟨_, rfl⟩ | ⟨_, _, h⟩
  · exact .inl rfl
  right
  rcases Method.call_bind_eq_error.mp h with h | ⟨n, wire', _, h⟩
  · unfold closing at h
    split at h
    · cases h
      exact hretry.elim
    · exact exchange_retryable h hretry
  · rw [Method.call_check, Prod.mk.injEq] at h
    exact (receiptOf_not_retryable h.1 hretry).elim

end TradingLab.Notifications
