import InsiderTrader.Journal

/-!
# The read model

A query cache of the journal that can be rebuilt from it. It keeps the records
that were handed to it, each under its journal sequence.

## Main definitions

- `ProjectionStore` — the records of the cache, in file order
- `ProjectionStore.rebuild` — the cache of a journal
-/

namespace InsiderTrader

/-- A projected record with its journal sequence. -/
structure ProjectionRecord where
  sequence : ℕ
  payload : JournalRecord

/-- The cache: its records in file order. -/
structure ProjectionStore where
  records : List ProjectionRecord

namespace ProjectionStore

/-- The cache without records. -/
def new : ProjectionStore := ⟨[]⟩

/-- The records of a journal, which number from zero. -/
def rebuild (journal : List JournalRecord) : ProjectionStore :=
  ⟨journal.mapIdx ProjectionRecord.mk⟩

/-- The cache with one more record. -/
def push (store : ProjectionStore) (record : ProjectionRecord) : ProjectionStore :=
  ⟨store.records ++ [record]⟩

theorem rebuild_length (journal : List JournalRecord) :
    (rebuild journal).records.length = journal.length := by
  rw [rebuild, List.length_mapIdx]

/-- The cache of a longer journal. -/
theorem rebuild_append (journal : List JournalRecord) (record : JournalRecord) :
    rebuild (journal ++ [record]) = (rebuild journal).push ⟨journal.length, record⟩ := by
  rw [rebuild, rebuild, push, List.mapIdx_concat]

end ProjectionStore

end InsiderTrader
