import PgMesh.Foundation.GoError

/-!
# Configuration of a copy batcher

`CopyBatchConfig` is the value a caller writes.  `BatcherConfig` is what a
batcher holds after `NewCopyBatcher` has validated and normalized it.
-/

namespace PgMesh.Copy

open PgMesh.Foundation

variable {ε : Type}

/-- One millisecond, in the nanoseconds of `time.Duration`. -/
def defaultCopyBatchLinger : Int := 1000000

def defaultCopyBatchMaxConcurrentBatches : Int := 32

structure CopyBatchConfig where
  maxRowsPerBatch : Int
  linger : Int
  maxConcurrentBatches : Int
  deriving DecidableEq, Repr

namespace CopyBatchConfig

def validate (c : CopyBatchConfig) : Option (GoError ε) :=
  if c.maxRowsPerBatch < 0 then
    some (.new "pgmesh: copy batch maximum rows per batch must not be negative")
  else if c.linger < 0 then
    some (.new "pgmesh: copy batch linger must not be negative")
  else if c.maxConcurrentBatches < 0 then
    some (.new
      "pgmesh: copy batch maximum concurrent batches must not be negative")
  else none

/-- Zero selects the default; a zero row limit stays unbounded. -/
def normalized (c : CopyBatchConfig) : CopyBatchConfig :=
  { c with
    linger := if c.linger = 0 then defaultCopyBatchLinger else c.linger
    maxConcurrentBatches :=
      if c.maxConcurrentBatches = 0 then defaultCopyBatchMaxConcurrentBatches
      else c.maxConcurrentBatches }

theorem validate_eq_none {c : CopyBatchConfig} :
    c.validate (ε := ε) = none ↔
      0 ≤ c.maxRowsPerBatch ∧ 0 ≤ c.linger ∧ 0 ≤ c.maxConcurrentBatches := by
  simp only [validate]
  split
  · simp
    omega
  · split
    · simp
      omega
    · split
      · simp
        omega
      · simp
        omega

end CopyBatchConfig

/-- A configuration that has passed `validate` and `normalized`. -/
structure BatcherConfig extends CopyBatchConfig where
  rows_nonneg : 0 ≤ maxRowsPerBatch
  linger_pos : 0 < linger
  concurrent_pos : 1 ≤ maxConcurrentBatches

/-- The configuration a batcher keeps, for a configuration `validate` accepts. -/
def CopyBatchConfig.accepted (c : CopyBatchConfig)
    (h : c.validate (ε := ε) = none) : BatcherConfig where
  toCopyBatchConfig := c.normalized
  rows_nonneg := (CopyBatchConfig.validate_eq_none.mp h).1
  linger_pos := by
    have := (CopyBatchConfig.validate_eq_none.mp h).2.1
    simp only [normalized, defaultCopyBatchLinger]
    split <;> omega
  concurrent_pos := by
    have := (CopyBatchConfig.validate_eq_none.mp h).2.2
    simp only [normalized, defaultCopyBatchMaxConcurrentBatches]
    split <;> omega

end PgMesh.Copy
