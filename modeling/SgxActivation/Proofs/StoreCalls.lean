import SgxActivation.Proofs.Classification

/-!
# What goes to the store

**`Exchange.storeCalls`** forgets the events of a trace and the queries to the processor. An
examination has none of the rest; a classification has a walk, or nothing.
-/

namespace SgxActivation

open Exchange

namespace Exchange

/-- The calls of a trace that went to the store. -/
def storeCalls (trace : List Exchange) : List Exchange :=
  (calls trace).filter fun exchange => !exchange.isQuery

@[simp]
theorem storeCalls_append (first second : List Exchange) :
    storeCalls (first ++ second) = storeCalls first ++ storeCalls second := by
  simp [storeCalls]

theorem storeCalls_congr {trace other : List Exchange} (same : calls trace = calls other) :
    storeCalls trace = storeCalls other := by
  unfold storeCalls
  rw [same]

theorem storeCalls_of_calls {trace : List Exchange} (h : calls trace = []) :
    storeCalls trace = [] := by
  simp [storeCalls, h]

end Exchange

namespace Settings

variable {settings : Settings} {trace : List Exchange}

theorem storeCalls_examineProcessor {support : Support}
    (h : settings.examineProcessor.Yields trace support) : storeCalls trace = [] := by
  refine List.filter_eq_nil_iff.2 fun exchange member => ?_
  simp [h.queries (Support.asks_examine _) exchange member]

theorem Walk.storeCalls {walk : List Exchange} {result : Except Failure Status}
    (h : Walk settings walk result) : walk.filter (fun exchange => !exchange.isQuery) = walk := by
  cases h <;> rfl

theorem length_fullWalk (seen presence : Presence) :
    (settings.fullWalk seen presence).length = 4 := rfl

theorem Walk.length_le {walk : List Exchange} {result : Except Failure Status}
    (h : Walk settings walk result) : walk.length ≤ 4 := by
  cases h <;> simp [fullWalk, approach]

/-- What goes to the store in a classification is a walk, if anything. -/
theorem yields_classify_storeCalls {result : Except Failure Status}
    (h : settings.classify.run.Yields trace result) :
    storeCalls trace = [] ∨ Walk settings (storeCalls trace) result := by
  obtain ⟨examination, support, walk, hexamination, rfl, hclassified⟩ := yields_classify h
  rw [storeCalls_append, storeCalls_examineProcessor hexamination, List.nil_append]
  unfold storeCalls
  generalize calls walk = walked at hclassified
  cases hclassified with
  | unsupported | enabled => exact .inl rfl
  | walked hwalk =>
    rw [hwalk.storeCalls]
    exact .inr hwalk

theorem length_classify_le {result : Except Failure Status}
    (h : settings.classify.run.Yields trace result) : (storeCalls trace).length ≤ 4 := by
  rcases yields_classify_storeCalls h with hnone | hwalk
  · simp [hnone]
  · exact hwalk.length_le

/-- A classification that leads to a request or to the pending reboot goes to the
store in a full walk. -/
theorem storeCalls_classify_full (found : Bool)
    (h : settings.classify.run.Yields trace
      (.ok (if found then .rebootRequired else .interfaceAvailable))) :
    ∃ seen, seen.IsClear ∧
      storeCalls trace = settings.fullWalk seen (if found then .present else .absent) := by
  obtain ⟨examination, seen, hexamination, hclear, hcalls⟩ := yields_classify_full found h
  refine ⟨seen, hclear, ?_⟩
  have hqueries := storeCalls_examineProcessor hexamination
  unfold storeCalls at hqueries ⊢
  rw [hcalls, List.filter_append, hqueries]
  rfl

end Settings

end SgxActivation
