import TradingLab.Production.Simulate

/-!
# Features of production bars

Every feature is a series over the bars of a symbol, without a value where the
bars of its window are not complete. The binary floating-point numbers are a
parameter: nothing here needs a law of theirs.
-/

namespace TradingLab.Production
open Series

/-- The operations on binary floating-point numbers. -/
structure Floats (F : Type) where
  ofDecimal : Decimal → F
  ofInt : ℤ → F
  /-- The decimal number of the shortest text. -/
  toDecimal : F → Decimal
  truncate : F → ℤ
  isFinite : F → Bool
  add : F → F → F
  sub : F → F → F
  mul : F → F → F
  div : F → F → F
  neg : F → F
  sqrt : F → F
  /-- No value where the square is out of range. -/
  square : F → Option F
  sum : List F → F
  lt : F → F → Bool
  le : F → F → Bool
  eq : F → F → Bool
  /-- A whole number that is not below one. -/
  one_le_truncate : ∀ x, isFinite x = true → eq (ofInt (truncate x)) x = true →
    lt x (ofInt 1) = false → 1 ≤ truncate x

/-- Why a compilation ends without a series. -/
inductive CompileFailure where
  | mcf (message : String)
  | ruleBlocked (message : String)
  | keyError (key : String)
  | overflow
deriving Repr, DecidableEq

section
variable {F : Type} (fl : Floats F)

def Floats.zero : F := fl.ofInt 0
def Floats.one : F := fl.ofInt 1

/-- The first of the greatest values. -/
def Floats.max (first : F) (rest : List F) : F :=
  rest.foldl (fun a b => if fl.lt a b then b else a) first

/-- The first of the least values. -/
def Floats.min (first : F) (rest : List F) : F :=
  rest.foldl (fun a b => if fl.lt b a then b else a) first

end

def Timeframe.name : Timeframe → String
  | .m15 => "15m"
  | .h1 => "1h"
  | .h4 => "4h"
  | .d1 => "1d"

structure Row (F : Type) where
  time : ℤ
  opening : F
  high : F
  low : F
  close : F
  baseVolume : F
  quoteVolume : F
  tradeCount : F
deriving Repr, DecidableEq

/-- What the features read of the bars of a symbol. -/
structure Bars (F : Type) where
  symbol : String
  timeframe : Timeframe
  rows : List (Row F)
deriving Repr, DecidableEq

structure BarsFields (F : Type) extends Bars F where
  datasetId : String
  evidencePartition : String
deriving Repr, DecidableEq

def populationStartMs : ℤ := 1577836800000

section
variable {F : Type} (fl : Floats F)

def Row.values (row : Row F) : List F :=
  [row.opening, row.high, row.low, row.close, row.baseVolume, row.quoteVolume, row.tradeCount]

def Row.prices (row : Row F) : List F := [row.opening, row.high, row.low, row.close]
def Row.activity (row : Row F) : List F := [row.baseVolume, row.quoteVolume, row.tradeCount]

/-- The high or the low is not where the other prices are. -/
def Row.misordered (row : Row F) : Bool :=
  fl.lt row.high (fl.max row.opening [row.close]) || fl.lt (fl.min row.opening [row.close]) row.low ||
    fl.lt row.high row.low

def BarsFields.validate (bars : BarsFields F) : Except Failure Unit := do
  let cadence := bars.timeframe.cadenceMs
  raiseIf (bars.evidencePartition ≠ "DEVELOPMENT" ∨ bars.datasetId = "" ∨
    bars.symbol.endsWith "USDT" = false ∨ bars.rows.length < 2)
    (.mcf "invalid production bars identity")
  raiseIf (¬ (bars.rows.map Row.time).Pairwise (· < ·))
    (.mcf "production bars must be strictly increasing")
  raiseIf ((∃ first ∈ bars.rows.head?, first.time < populationStartMs) ∨
    ∃ last ∈ bars.rows.getLast?, developmentEndMs ≤ last.time)
    (.mcf "production bars outside frozen Development population")
  raiseIf (bars.rows.any (fun row => decide (row.time % cadence ≠ 0) ||
    decide (developmentEndMs < row.time + cadence)) = true)
    (.mcf "production bar cadence/completion boundary mismatch")
  raiseIf (bars.rows.any (fun row => row.values.any fun v => !fl.isFinite v) = true)
    (.mcf "nonfinite production bar")
  raiseIf (bars.rows.any (fun row => row.prices.any fun v => fl.le v fl.zero) = true)
    (.mcf "nonpositive production price")
  raiseIf (bars.rows.any (fun row => row.activity.any fun v => fl.lt v fl.zero) = true)
    (.mcf "negative production activity")
  raiseIf (bars.rows.any (Row.misordered fl) = true) (.mcf "invalid OHLC ordering")

end

structure ProductionBars {F : Type} (fl : Floats F) extends BarsFields F where
  valid : toBarsFields.validate fl = .ok ()

structure CacheFields {F : Type} (fl : Floats F) where
  bars : ProductionBars fl
  peers : List (String × ProductionBars fl)

def CacheFields.validate {F : Type} {fl : Floats F} (cache : CacheFields fl) : Except Failure Unit :=
  raiseIf (∃ peer ∈ cache.peers, peer.1 ≠ peer.2.symbol ∨ peer.2.timeframe ≠ cache.bars.timeframe)
    (.mcf "unaligned production peer identity")

/-- The bars of a symbol with those of its peers, by symbol. -/
structure ProductionFeatureCache {F : Type} (fl : Floats F) extends CacheFields fl where
  distinct : (peers.map Prod.fst).Nodup
  valid : toCacheFields.validate = .ok ()

structure Feed (F : Type) where
  bars : Bars F
  peers : List (String × Bars F)
deriving Repr, DecidableEq

def ProductionFeatureCache.feed {F : Type} {fl : Floats F} (cache : ProductionFeatureCache fl) : Feed F where
  bars := cache.bars.toBars
  peers := cache.peers.map fun peer => (peer.1, peer.2.toBars)

section
variable {F : Type}

def Bars.upTo (t : ℤ) (bars : Bars F) : Bars F := { bars with rows := Series.upTo Row.time t bars.rows }

/-- The bars with an open time that is not later. -/
def Feed.upTo (t : ℤ) (feed : Feed F) : Feed F where
  bars := feed.bars.upTo t
  peers := feed.peers.map fun peer => (peer.1, peer.2.upTo t)

theorem ProductionBars.ascending {fl : Floats F} (bars : ProductionBars fl) :
    (bars.rows.map Row.time).Pairwise (· < ·) := by
  have hvalid := bars.valid
  unfold BarsFields.validate at hvalid
  dsimp only at hvalid
  rw [raiseIf_bind_eq_ok, raiseIf_bind_eq_ok, not_not] at hvalid
  exact hvalid.2.1

end

inductive Column where
  | opens | highs | lows | closes | baseVolume | quoteVolume | tradeCount
deriving Repr, DecidableEq

inductive Statistic (F : Type) where
  | mean | std | min | max | median | sum
  | quantile (q : F)

section
variable {F : Type} (fl : Floats F)

def Column.of : Column → Row F → F
  | .opens => Row.opening
  | .highs => Row.high
  | .lows => Row.low
  | .closes => Row.close
  | .baseVolume => Row.baseVolume
  | .quoteVolume => Row.quoteVolume
  | .tradeCount => Row.tradeCount

/-- The index where the unbroken run of bars begins that reaches an index. -/
def runStart (cadence : ℤ) (rows : List (Row F)) : ℕ → ℕ
  | 0 => 0
  | n + 1 =>
      if rows[n + 1]?.map Row.time ≠ rows[n]?.map (fun row => row.time + cadence) then n + 1
      else runStart cadence rows n

def Floats.mean (values : List F) : F := fl.div (fl.sum values) (fl.ofInt values.length)

def Floats.ordered (values : List F) : List F := values.mergeSort fun a b => !fl.lt b a

/-- The middle value, or half of the sum of the two in the middle. -/
def Floats.median (values : List F) : F :=
  let ordered := fl.ordered values
  let n := ordered.length
  let nth (i : ℕ) : F := (ordered[i]?).getD fl.zero
  if n % 2 = 1 then nth (n / 2) else fl.div (fl.add (nth (n / 2 - 1)) (nth (n / 2))) (fl.ofInt 2)

def Statistic.validate : Statistic F → Except CompileFailure Unit
  | .quantile q =>
      raiseIf ((fl.le fl.zero q && fl.le q fl.one) = false) (.mcf "invalid production quantile")
  | _ => .ok ()

/-- The statistic of the values of one window. -/
def Floats.evaluate (values : List F) : Statistic F → Except CompileFailure F
  | .mean => .ok (fl.mean values)
  | .std => do
      let mu := fl.mean values
      let squares ← values.mapM fun x =>
        ((fl.square (fl.sub x mu)).map Except.ok).getD (.error .overflow)
      return fl.sqrt (fl.max fl.zero [fl.div (fl.sum squares) (fl.ofInt values.length)])
  | .min => .ok (fl.min (values.headD fl.zero) values.tail)
  | .max => .ok (fl.max (values.headD fl.zero) values.tail)
  | .median => .ok (fl.median values)
  | .sum => .ok (fl.sum values)
  | .quantile q =>
      let ordered := fl.ordered values
      let position := fl.truncate (fl.mul q (fl.ofInt (ordered.length - 1)))
      .ok ((ordered[position.toNat]?).getD fl.zero)

section
variable (cadence : ℤ) (rows : List (Row F))

/-- The statistic of a window that ends some bars before an index, where the window is complete. -/
def rollingAt (column : Column) (window : ℤ) (lag : ℕ) (statistic : Statistic F) (i : ℕ) :
    Except CompileFailure (Option F) :=
  let last := i - lag
  let start := (last : ℤ) - window + 1
  if i < lag ∨ window < 1 ∨ start < runStart cadence rows last then .ok none
  else (fl.evaluate (((rows.take (last + 1)).drop start.toNat).map column.of) statistic).map some

def rolling (column : Column) (window : ℤ) (lag : ℕ) (statistic : Statistic F) :
    Except CompileFailure (List (Option F)) := do
  statistic.validate fl
  indexedM rows.length (rollingAt fl cadence rows column window lag statistic)

/-- The times go on in steps of the cadence. -/
def isConsecutive (cadence : ℤ) : ℤ → List ℤ → Bool
  | _, [] => true
  | expected, time :: times => decide (time = expected) && isConsecutive cadence (expected + cadence) times

/-- The window of bars that ends at an index is complete. -/
def isComplete (last : ℕ) (window : ℤ) : Bool :=
  let start := (last : ℤ) - window + 1
  if window < 1 ∨ start < 0 then false
  else
    let times := ((rows.take (last + 1)).drop start.toNat).map Row.time
    isConsecutive cadence (times.headD 0) times

/-- The relative change from one value to another. -/
def Floats.change (prior current : F) : Option F :=
  if fl.eq prior fl.zero then none else some (fl.sub (fl.div current prior) fl.one)

def laggedReturnAt (lookback : ℤ) (i : ℕ) : Option F := do
  let row ← rows[i]?
  if isComplete cadence rows i (lookback + 1) then
    let prior ← rows[i - lookback.toNat]?
    fl.change prior.close row.close
  else none

def laggedReturn (lookback : ℤ) : Except CompileFailure (List (Option F)) := do
  raiseIf (lookback < 1) (.mcf "invalid production return lookback")
  return indexed rows.length (laggedReturnAt fl cadence rows lookback)

def valueAt (feature : List (Option F)) (i : ℕ) : Option F := feature[i]?.join

def zscoreAt (means stds : List (Option F)) (i : ℕ) : Option F := do
  let row ← rows[i]?
  let mu ← valueAt means i
  let sd ← valueAt stds i
  if fl.le sd fl.zero then none else some (fl.div (fl.sub row.close mu) sd)

def zscoreVsLagged (window : ℤ) : Except CompileFailure (List (Option F)) := do
  let means ← rolling fl cadence rows .closes window 1 .mean
  let stds ← rolling fl cadence rows .closes window 1 .std
  return indexed rows.length (zscoreAt fl rows means stds)

def rowAt (rows : List (Row F)) (t : ℤ) : Option (Row F) := rows.find? fun row => decide (row.time = t)

/-- The return of a peer over the bars that end at a time, without a gap. -/
def peerReturnOver (peer : Bars F) (lookback : ℤ) (t : ℤ) : Option F := do
  let current ← rowAt peer.rows t
  let prior ← rowAt peer.rows (t - lookback * cadence)
  if (List.range (lookback + 1).toNat).all fun k => (rowAt peer.rows (t - k * cadence)).isSome then
    fl.change prior.close current.close
  else none

def peerReturn (peers : List (String × Bars F)) (peer : String) (lookback : ℤ) : List (Option F) :=
  match peers.lookup peer with
  | none => rows.map fun _ => none
  | some bars => rows.map fun row => peerReturnOver fl cadence bars lookback row.time

end

/-- The trailing quote volume of each symbol by time. -/
def trailingVolume (window : ℤ) (bars : Bars F) : Except CompileFailure (List (ℤ × Option F)) := do
  let sums ← rolling fl bars.timeframe.cadenceMs bars.rows .quoteVolume window 1 .sum
  return (bars.rows.map Row.time).zip sums

/-- The trailing volumes at a time of the symbols that are members then. The order of the symbols
plays no role. -/
def crossSection (members : List String) (trailing : List (String × List (ℤ × Option F))) (t : ℤ) :
    List (String × F) :=
  trailing.filterMap fun (symbol, volumes) =>
    if symbol ∈ members then (volumes.lookup t).join.map fun value => (symbol, value) else none

def half : Decimal := ⟨false, 5, -1⟩

/-- The rank of a symbol among the members with a trailing volume. -/
def percentile (cross : List (String × F)) (symbol : String) : Option F := do
  let target ← cross.lookup symbol
  if cross.length < 2 then none
  else
    let below := (cross.map Prod.snd).countP fun v => fl.lt v target
    let equal := (cross.map Prod.snd).countP fun v => fl.eq v target
    let rank := fl.div (fl.add (fl.ofInt below) (fl.mul (fl.ofDecimal half) (fl.ofInt (equal - 1))))
      (fl.ofInt (cross.length - 1))
    some (fl.max fl.zero [fl.min fl.one [rank]])

/-- Point-in-time percentiles among the members of the universe. -/
def liquidityPercentiles (caches : List (String × Bars F)) (window : ℤ)
    (binding : ProductionUniverseBinding) : Except CompileFailure (List (String × List (Option F))) := do
  raiseIf (caches.length < 2) (.mcf "liquidity percentile requires multiple symbols")
  let trailing ← caches.mapM fun (symbol, bars) => do
    let volumes ← trailingVolume fl window bars
    return (symbol, volumes)
  return caches.map fun (symbol, bars) => (symbol, bars.rows.map fun row =>
    let members := binding.symbolsAt row.time
    if symbol ∈ members then percentile fl (crossSection members trailing row.time) symbol else none)

end

end TradingLab.Production
