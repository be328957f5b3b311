import TradingLab.Backtest.Market

/-!
# Paper intents and fill references

An intent is what a decision asks for; a reference is the uncosted fill it leads
to. An entry carries its quantity and bracket, and nothing else carries them.
-/

namespace TradingLab

structure FillModelError where
  message : String
deriving Repr, DecidableEq

inductive IntentAction where
  | hold
  | enterLong
  | exitLong
deriving Repr, DecidableEq

def IntentAction.value : IntentAction → String
  | hold => "HOLD"
  | enterLong => "ENTER_LONG"
  | exitLong => "EXIT_LONG"

inductive FillReason where
  | nextPrimaryOpen
  | scriptedExit
  | stop
  | target
  | ambiguousStopPriority
deriving Repr, DecidableEq

def FillReason.value : FillReason → String
  | nextPrimaryOpen => "NEXT_PRIMARY_OPEN"
  | scriptedExit => "SCRIPTED_EXIT"
  | stop => "STOP"
  | target => "TARGET"
  | ambiguousStopPriority => "AMBIGUOUS_STOP_PRIORITY"

def _positiveDecimal (value field : String) : Except FillModelError Decimal := do
  raiseIf (¬ decimalPattern value) ⟨field ++ " must be a plain decimal string"⟩
  let number := Decimal.ofText value
  raiseIf (number ≤ 0) ⟨field ++ " must be positive"⟩
  return number

theorem _positiveDecimal_eq_ok {value field : String} {d : Decimal} :
    _positiveDecimal value field = .ok d ↔
      decimalPattern value ∧ 0 < (Decimal.ofText value).toRat ∧ d = Decimal.ofText value := by
  unfold _positiveDecimal
  simp only [raiseIf_bind_eq_ok, not_not, Decimal.le_def, Decimal.toRat_zero, not_le, pure,
    Except.pure, Except.ok.injEq]
  constructor
  · intro ⟨hp, h0, hd⟩
    exact ⟨hp, h0, hd.symm⟩
  · intro ⟨hp, h0, hd⟩
    exact ⟨hp, h0, hd.symm⟩

namespace PaperIntent

structure Fields where
  action : IntentAction
  decisionTimeMs : ℤ
  quantity : Option String := none
  stopPrice : Option String := none
  targetPrice : Option String := none
deriving Repr, DecidableEq

/-- A missing entry field is not a plain decimal string. -/
def _entryField (value : Option String) (field : String) : Except FillModelError Decimal :=
  match value with
  | some text => _positiveDecimal text field
  | none => .error ⟨field ++ " must be a plain decimal string"⟩

def Fields.postInit (i : Fields) : Except FillModelError Unit := do
  raiseIf (i.decisionTimeMs ≤ 0 ∨ i.decisionTimeMs % primaryInterval.milliseconds ≠ 0)
    ⟨"Paper intent identity is invalid"⟩
  if i.action = .enterLong then
    let quantity ← _entryField i.quantity "quantity"
    let stop ← _entryField i.stopPrice "stop_price"
    let target ← _entryField i.targetPrice "target_price"
    raiseIf (quantity ≤ 0 ∨ target ≤ stop) ⟨"Long entry bracket is invalid"⟩
  else
    raiseIf (i.quantity ≠ none ∨ i.stopPrice ≠ none ∨ i.targetPrice ≠ none)
      ⟨"HOLD and EXIT_LONG cannot carry entry fields"⟩

end PaperIntent

structure PaperIntent extends PaperIntent.Fields where
  valid : toFields.postInit = .ok ()
deriving DecidableEq

namespace FillReference

structure Fields where
  action : IntentAction
  symbol : Symbol
  decisionTimeMs : ℤ
  fillTimeMs : ℤ
  quantity : String
  referencePrice : String
  reason : FillReason
deriving Repr, DecidableEq

def Fields.postInit (r : Fields) : Except FillModelError Unit := do
  raiseIf (r.action = .hold ∨ r.fillTimeMs ≠ r.decisionTimeMs ∨ r.fillTimeMs ≤ 0 ∨
      r.fillTimeMs % primaryInterval.milliseconds ≠ 0 ∨
      (r.action = .enterLong ∧ r.reason ≠ .nextPrimaryOpen) ∨
      (r.action = .exitLong ∧ r.reason = .nextPrimaryOpen))
    ⟨"Fill reference identity is invalid"⟩
  let _ ← _positiveDecimal r.quantity "quantity"
  let _ ← _positiveDecimal r.referencePrice "reference_price"

end FillReference

structure FillReference extends FillReference.Fields where
  valid : toFields.postInit = .ok ()
deriving DecidableEq

namespace FillReference

def quantityDecimal (r : FillReference) : Decimal := Decimal.ofText r.quantity
def priceDecimal (r : FillReference) : Decimal := Decimal.ofText r.referencePrice

theorem Fields.postInit_eq_ok {r : Fields} : r.postInit = .ok () ↔
    (r.action ≠ .hold ∧ r.fillTimeMs = r.decisionTimeMs ∧ 0 < r.fillTimeMs ∧
      r.fillTimeMs % 3600000 = 0 ∧
      (r.action = .enterLong → r.reason = .nextPrimaryOpen) ∧
      (r.action = .exitLong → r.reason ≠ .nextPrimaryOpen)) ∧
    (decimalPattern r.quantity ∧ 0 < Decimal.ofText r.quantity) ∧
    (decimalPattern r.referencePrice ∧ 0 < Decimal.ofText r.referencePrice) := by
  have hour : primaryInterval.milliseconds = 3600000 := rfl
  unfold Fields.postInit
  simp only [raiseIf_eq_ok, exists_const, bind_eq_ok, _positiveDecimal_eq_ok, not_or, not_le,
    not_not, not_and, hour, Decimal.lt_def, Decimal.toRat_zero, pure, Except.pure, and_true]
  constructor
  · intro ⟨h1, q, ⟨hq, q0, _⟩, p, hp, p0, _⟩
    exact ⟨h1, ⟨hq, q0⟩, hp, p0⟩
  · intro ⟨h1, ⟨hq, q0⟩, hp, p0⟩
    exact ⟨h1, _, ⟨hq, q0, rfl⟩, _, hp, p0, rfl⟩

theorem facts (r : FillReference) :
    (r.action ≠ .hold ∧ r.fillTimeMs = r.decisionTimeMs ∧ 0 < r.fillTimeMs ∧
      r.fillTimeMs % 3600000 = 0) ∧
    (decimalPattern r.quantity ∧ 0 < r.quantityDecimal.toRat) ∧
    (decimalPattern r.referencePrice ∧ 0 < r.priceDecimal.toRat) := by
  obtain ⟨⟨ha, ht, hp, hm, -⟩, ⟨pq, zq⟩, pp, zp⟩ := Fields.postInit_eq_ok.mp r.valid
  rw [Decimal.lt_def, Decimal.toRat_zero] at zq zp
  exact ⟨⟨ha, ht, hp, hm⟩, ⟨pq, zq⟩, pp, zp⟩

theorem action_cases (r : FillReference) : r.action = .enterLong ∨ r.action = .exitLong := by
  have h := r.facts.1.1
  cases hr : r.action <;> simp_all

end FillReference

end TradingLab
