import GraphClient.Database

/-!
Client configuration: sizes of chunks and a schema.
-/
namespace GraphClient

structure Config where
  nodeChunk : Option Nat
  edgeChunk : Option Nat
  mutationBatch : Option Nat
  schema : Option Schema

namespace Config

def empty : Config := ⟨none, none, none, none⟩

def options (c : Config) : Options :=
  let d := Options.default
  ⟨c.schema, c.nodeChunk.getD d.nodeChunk, c.edgeChunk.getD d.edgeChunk, c.mutationBatch.getD d.mutationBatch⟩

/-- Sizes are positive; of several that are not, the node size is named first, then the edge size. -/
def validate (c : Config) : Except ConfigFault Unit := do
  let positive := "must be a positive integer"
  if c.nodeChunk = some 0 then throw (.invalid "bulk.node_chunk_size" positive)
  if c.edgeChunk = some 0 then throw (.invalid "bulk.edge_chunk_size" positive)
  if c.mutationBatch = some 0 then throw (.invalid "bulk.mutation_batch_size" positive)
  if let some s := c.schema then
    s.validate.mapError fun v => .invalid "schema" v.message

end Config
end GraphClient
