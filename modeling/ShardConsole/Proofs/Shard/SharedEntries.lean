import ShardConsole.Proofs.Metric.WrittenTags
import ShardConsole.Proofs.Shard.Aggregation

/-!
# Shared Entries

When two tag sets under one name have an entry in common.

A collection knows tags by their written form only. Two tag sets that are written alike are
therefore one to it: a metric that is received with one of them is merged into what is found under
the other one. Tag sets that are not written alike have nothing to do with each other. Among tags
whose keys have no colon and no comma and whose values have no comma, which includes all that are
read from text, only equal ones are written alike. Other tags need not be so lucky, as the written
form does not tell a comma in a value from one between two tags.

## Theorems

* `Shard.get?_receive_of_alike`, `Shard.get?_receive_of_apart`: What is found under tags after a
  metric has been received.
* `Shard.shared_iff_written_alike`: When a metric changes what is found under other tags.
* `Shard.crossTalk_merges`: Two tag sets that are not equal and share an entry.
-/

namespace ShardConsole

namespace Shard

variable {s : Shard} {m : Metric}

/-- A metric is merged into what is found under tags that are written like its own. -/
theorem get?_receive_of_alike {tags : Tags} (alike : m.tags.text = tags.text) :
    ((s.receive m).collection m.kind).get? m.name tags =
      some (m.value.addTo (((s.collection m.kind).get? m.name tags).getD Total.start)) := by
  have received := total?_receive_self s m
  rw [alike] at received
  rw [Collection.get?_eq_total?, Collection.get?_eq_total?]
  exact received

/-- A metric changes nothing under tags that are not written like its own. -/
theorem get?_receive_of_apart {tags : Tags} (apart : m.tags.text ≠ tags.text) (kind : Kind)
    (name : String) :
    ((s.receive m).collection kind).get? name tags = (s.collection kind).get? name tags := by
  rw [Collection.get?_eq_total?, Collection.get?_eq_total?]
  exact total?_receive_of_ne fun mine => apart mine.2.2

/-- Whether tags have an entry in common with other ones.

    Receiving metrics with some tags never changes what is found under other tags of the same name
    exactly if the two are not written alike. If they are, then a metric with the ones is merged
    into what is found under the others. Tags whose keys have no colon and no comma and whose
    values have no comma are written alike only if they are equal. -/
theorem shared_iff_written_alike (name : String) (tags other : Tags) :
    ((∀ (s : Shard) (m : Metric), m.name = name → m.tags = tags → ∀ kind,
        ((s.receive m).collection kind).get? name other = (s.collection kind).get? name other) ↔
      tags.text ≠ other.text) ∧
    (tags.text = other.text → ∀ (s : Shard) (m : Metric), m.name = name → m.tags = tags →
      ((s.receive m).collection m.kind).get? name other =
        some (m.value.addTo (((s.collection m.kind).get? name other).getD Total.start))) ∧
    (tags.Separable → other.Separable → (tags.text = other.text ↔ tags = other)) := by
  refine ⟨⟨?_, ?_⟩, ?_, ?_⟩
  · intro kept alike
    -- A first metric begins an entry, and the others find it.
    have first := kept empty ⟨name, tags, .counter 1⟩ rfl rfl .counter
    have none : (empty.collection .counter).get? name other = none := Collection.total?_empty
    rw [none] at first
    have merged := get?_receive_of_alike (s := empty) (m := ⟨name, tags, .counter 1⟩) alike
    cases first.symm.trans merged
  · rintro apart s m rfl rfl kind
    exact get?_receive_of_apart apart kind m.name
  · rintro alike s m rfl rfl
    exact get?_receive_of_alike alike
  · intro separable separable'
    exact ⟨Tags.text_injective separable separable', congrArg Tags.text⟩

/-- One tag whose value has a comma, and two tags that are written like it. -/
theorem crossTalk_merges :
    Tags.ofPairs [("a", "1,b:2")] ≠ Tags.parse "a:1,b:2" ∧
    ((empty.receive ⟨"x", .parse "a:1,b:2", .counter 7⟩).collection .counter).get? "x"
        (.parse "a:1,b:2") = some 7 ∧
    (((empty.receive ⟨"x", .parse "a:1,b:2", .counter 7⟩).receive
        ⟨"x", .ofPairs [("a", "1,b:2")], .counter 5⟩).collection .counter).get? "x"
          (.parse "a:1,b:2") = some 12 := by
  refine ⟨fun same => ?_, by decide +kernel, by decide +kernel⟩
  have sizes := congrArg Tags.size same
  revert sizes
  decide +kernel

end Shard

end ShardConsole
