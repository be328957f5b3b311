import TradingLab.Data.Candle
import TradingLab.Json.Number

/-!
# The audit of a dataset manifest

A manifest reports the health of one candle range for each symbol and interval.
It is accepted when every pair is reported once and every report is clean. What
a later reader takes from it is kept in a typed form.
-/

namespace TradingLab

def Interval.all : List Interval := [.m15, .h1, .h4]

def Interval.ofText? (s : String) : Option Interval := Interval.all.find? fun x => x.value == s

@[simp] theorem Interval.ofText?_value (x : Interval) : Interval.ofText? x.value = some x := by
  cases x <;> decide

def maxManifestBytes : ℕ := 256 * 1024
def datasetKind : String := "BINANCE_SPOT_PUBLIC_CLOSED_OHLCV"
def expectedDays : ℤ := 30
def expectedTotal : ℤ := 7560

/-- A report whose symbol or interval is a list or a dictionary cannot be looked up. -/
inductive AuditError where
  | failed (message : String)
  | unhashable
deriving Repr, DecidableEq

namespace Audit

def get (v : Json) (key : String) : Json := (v.get? key).getD .null

def expectedRows (interval : Interval) : ℤ := expectedDays * 86400000 / interval.milliseconds

/-- The pairs that have to be reported. -/
def expectedPairs : List (Symbol × Interval) :=
  Symbol.all.flatMap fun symbol => Interval.all.map fun interval => (symbol, interval)

def isDict : Json → Bool
  | .object _ => true
  | _ => false

def isHashable : Json → Bool
  | .array _ => false
  | .object _ => false
  | _ => true

def items? : Json → Option (List Json)
  | .array xs => some xs.toList
  | _ => none

/-- The pair a report is about, when it is one of the expected pairs. -/
def pair? (report : Json) : Option (Symbol × Interval) := do
  let symbol ← (get report "symbol").str?.bind Symbol.ofText?
  let interval ← (get report "interval").str?.bind Interval.ofText?
  return (symbol, interval)

def integerZeros : List String := ["open_rows", "malformed_rows", "conflicting_rows"]

def emptyLists : List String :=
  ["duplicate_open_times", "historical_gap_open_times", "unexpected_open_times", "repair_ranges",
    "failure_reasons"]

def rowCounts : List String := ["total_rows", "unique_rows", "closed_rows"]

/-- The times of a report. -/
def _times (report : Json) (interval : Interval) : Bool :=
  match (get report "requested_start_time_ms").int?, (get report "requested_end_time_ms").int?,
      (get report "stored_first_open_time_ms").int?, (get report "stored_last_open_time_ms").int?,
      (get report "freshness_ms").int? with
  | some start, some stop, some first, some last, some freshness =>
      0 < start ∧ start < stop ∧ 0 ≤ freshness ∧ first = start ∧
        last = stop - interval.milliseconds
  | _, _, _, _, _ => false

def _healthy (report : Json) (interval : Interval) : Bool :=
  get report "backtest_ready" == .bool true && get report "fresh" == .bool true &&
    integerZeros.all (fun key => (get report key).same (.int 0)) &&
    emptyLists.all (fun key => (get report key).same (.list [])) &&
    rowCounts.all (fun key => (get report key).same (.int (expectedRows interval))) &&
    _times report interval

instance : LawfulBEq (Symbol × Interval) := inferInstance

/-- The loop over the reports; `seen` holds the pairs before. -/
def _auditReports :
    List (Symbol × Interval) → List Json → Except AuditError (List (Symbol × Interval))
  | seen, [] => return seen
  | seen, report :: reports => do
      raiseIf (¬ isDict report) (.failed "P1 health report is invalid")
      raiseIf (¬ isHashable (get report "symbol") ∨ ¬ isHashable (get report "interval")) .unhashable
      match pair? report with
      | none => .error (.failed "P1 dataset identity is invalid")
      | some pair => do
          raiseIf (pair ∈ seen ∨ ¬ (get report "source").same (.str dataSource))
            (.failed "P1 dataset identity is invalid")
          raiseIf (¬ _healthy report pair.2) (.failed "P1 dataset health gate failed")
          _auditReports (pair :: seen) reports

def _auditIdentity (manifest : Json) : Except AuditError Unit :=
  raiseIf (¬ ((get manifest "schema_version").same (.int 1) ∧
      (get manifest "database_schema_version").same (.int 1) ∧
      (get manifest "dataset_kind").same (.str datasetKind) ∧
      (get manifest "range_days").same (.int expectedDays) ∧
      (get manifest "generated_at_ms").int?.any (0 < ·)))
    (.failed "P1 manifest identity or range is invalid")

/-- The pairs of an accepted manifest. -/
def auditP1Manifest (manifest : Json) : Except AuditError (List (Symbol × Interval)) := do
  raiseIf (¬ isDict manifest) (.failed "P1 manifest schema is invalid")
  _auditIdentity manifest
  match items? (get manifest "datasets") with
  | none => .error (.failed "P1 manifest dataset coverage is invalid")
  | some datasets => do
      raiseIf (datasets.length ≠ expectedPairs.length)
        (.failed "P1 manifest dataset coverage is invalid")
      let seen ← _auditReports [] datasets
      raiseIf (¬ (expectedPairs.all (· ∈ seen)) ∨
          (seen.map fun pair => expectedRows pair.2).sum ≠ expectedTotal)
        (.failed "P1 dataset acceptance total is invalid")
      return seen

end Audit

/-- The range and the size of one dataset. -/
structure HealthReport where
  symbol : Symbol
  interval : Interval
  requestedStartTimeMs : ℤ
  requestedEndTimeMs : ℤ
  totalRows : Json
deriving DecidableEq

def HealthReport.ofJson? (report : Json) : Option HealthReport := do
  let (symbol, interval) ← Audit.pair? report
  let requestedStartTimeMs ← (Audit.get report "requested_start_time_ms").int?
  let requestedEndTimeMs ← (Audit.get report "requested_end_time_ms").int?
  return {
    symbol, interval, requestedStartTimeMs, requestedEndTimeMs
    totalRows := Audit.get report "total_rows" }

structure DatasetManifest where
  generatedAtMs : ℤ
  databaseSchemaVersion : Json
  datasets : List HealthReport
deriving DecidableEq

def DatasetManifest.ofJson? (manifest : Json) : Option DatasetManifest := do
  let generatedAtMs ← (Audit.get manifest "generated_at_ms").int?
  let reports ← Audit.items? (Audit.get manifest "datasets")
  return {
    generatedAtMs
    databaseSchemaVersion := Audit.get manifest "database_schema_version"
    datasets := reports.filterMap HealthReport.ofJson? }

end TradingLab
