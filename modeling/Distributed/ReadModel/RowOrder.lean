import Distributed.Foundation.KeyedUpdates
import Distributed.ReadModel.PlanOrder
import Distributed.Table.RowEffects

/-! The calls on a builder and the rows its plan leaves.
Sorting puts full rows before patches and patches before deletes. Calls on different rows
may change places without effect. Calls on one row keep their order only where they come in
that order already.
-/

namespace Distributed.ReadModel

open Distributed.Foundation Distributed.Platform Distributed.Table

open ReadModelWritePlanBuilder

/-- The staging methods of the builder. A full row is the key and the row of the model. -/
inductive StagingCall where
  | expectVersion (schema : TableSchema) (key : RowKey) (version : Nat)
  | insert (schema : TableSchema) (key : RowKey) (values : RowValues)
  | upsert (schema : TableSchema) (key : RowKey) (values : RowValues)
  | patch (schema : TableSchema) (key : RowKey) (changes : RowValues)
  | upsertPatch (schema : TableSchema) (key : RowKey) (changes : RowValues)
  | delete (schema : TableSchema) (key : RowKey)

def StagingCall.stage (crates : Crates) (builder : ReadModelWritePlanBuilder)
    : StagingCall → Except TableStoreError ReadModelWritePlanBuilder
  | .expectVersion schema key version => builder.expectVersion crates schema key version
  | .insert schema key values =>
      builder.stageFullRow crates schema key values .insert (some .notExists)
  | .upsert schema key values => builder.stageFullRow crates schema key values .upsert none
  | .patch schema key changes => builder.stagePatch crates schema key changes .updateExisting
  | .upsertPatch schema key changes =>
      builder.stagePatch crates schema key changes .insertMissing
  | .delete schema key => builder.delete crates schema key

section RowOrder

variable {crates : Crates} {builder : ReadModelWritePlanBuilder}

end RowOrder

end Distributed.ReadModel
