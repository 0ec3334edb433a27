import DenEdge.Operations.Replay
import DenEdge.Operations.Semantic

/-!
# An operation takes effect once

A receipt is counted by its place: the entries that stand after it push it out, whether they were stored after it
was completed or, as for an operation that was resumed, before.
-/

namespace DenEdge.Operations

/-- What a library's journal comes to. -/
def reached (codec : Codec) (legacy : List LegacyEntry) (es : List Event) : State :=
  Run.exec (step codec) (start legacy) es

/-- What it comes to from a state on: what was stored and evicted is counted from there. -/
def since (codec : Codec) (s : State) (es : List Event) : State := Run.exec (step codec) (.of s.store) es

theorem sound_reached (codec : Codec) {legacy : List LegacyEntry}
    (hlegacy : (ids (entries codec ⟨none, legacy⟩)).Nodup)
    (es : List Event) : Sound codec (reached codec legacy es) :=
  Run.exec_inv_all (I := Sound codec) (fun _ ev h => h.step ev) es ⟨hlegacy, nofun⟩

/-- An operation with a receipt is answered from it, as long as its place and what was stored since come to fewer
entries than the journal holds, and the byte limit spares it. -/
theorem receipt_answers {codec : Codec} {s : State} (hs : Sound codec s) {e : Entry} {result : OperationResult}
    {request : String}
    (he : e ∈ entries codec s.store) (hstate : e.state = .complete result)
    (hrequest : e.requestDigest = codec.sha.of request) {es : List Event}
    (hfew : newer e.operationId (ids (entries codec s.store)) + (since codec s es).appends < ENTRY_LIMIT)
    (hspared : e.operationId ∉ (since codec s es).evicted) :
    ∃ stored ∈ result :: copied e.operationId es, ∀ kind request' script,
      perform codec (since codec s es) kind e.operationId request' script =
        if kind = e.kind ∧ request' = request then ⟨since codec s es, .returned stored, none⟩
        else ⟨since codec s es, .conflict, none⟩ := by
  have hsound : Sound codec (.of s.store) := ⟨hs.nodup, hs.bounds⟩
  have hkept : Kept codec e (result :: copied e.operationId es)
      (newer e.operationId (ids (entries codec s.store))) (.of s.store) := by
    refine ⟨result, List.mem_cons_self, ?_, Nat.le_refl _⟩
    rw [← hstate]
    exact he
  obtain ⟨stored, hstored, hmem, -⟩ := hkept.exec es hsound (List.subset_cons_self _ _) hfew hspared
  refine ⟨stored, hstored, fun kind request' script => ?_⟩
  have hsound' : Sound codec (since codec s es) :=
    Run.exec_inv_all (I := Sound codec) (fun _ ev h => h.step ev) es hsound
  rw [perform_receipt hsound' hmem]
  simp only [hrequest, Digest.of_eq]

/-- **Operations are performed once for each receipt, and calls are sent again only when their client is gone.**
-/
theorem operations_take_effect_once (codec : Codec) (legacy : List LegacyEntry)
    (hlegacy : (ids (entries codec ⟨none, legacy⟩)).Nodup) (es : List Event) (config : Semantic.Config)
    (turns : List Semantic.Event) :
    -- a receipt answers
    (∀ e ∈ entries codec (reached codec legacy es).store, ∀ result request,
      e.state = .complete result → e.requestDigest = codec.sha.of request → ∀ later,
      newer e.operationId (ids (entries codec (reached codec legacy es).store)) +
          (since codec (reached codec legacy es) later).appends < ENTRY_LIMIT →
      e.operationId ∉ (since codec (reached codec legacy es) later).evicted →
      ∃ stored ∈ result :: copied e.operationId later, ∀ kind request' script,
        perform codec (since codec (reached codec legacy es) later) kind e.operationId request' script =
          if kind = e.kind ∧ request' = request then
            ⟨since codec (reached codec legacy es) later, .returned stored, none⟩
          else ⟨since codec (reached codec legacy es) later, .conflict, none⟩) ∧
    -- the journal is bounded, and names an operation once
    (∀ l, (reached codec legacy es).store.current = some l → l.length ≤ ENTRY_LIMIT ∧
      codec.bytes l ≤ BYTE_LIMIT ∧ (ids l).Nodup) ∧
    -- it keeps the operation that is being performed
    (∀ kind operationId request script during,
      (perform codec (reached codec legacy es) kind operationId request script).ran = some during →
      operationId ∈ ids during ∧ operationId ∈
        ids (entries codec (perform codec (reached codec legacy es) kind operationId request
          script).state.store)) ∧
    -- a call is settled once, and sent again when the clients it was sent to are disposed of
    ∀ (i : ℕ) (call : Semantic.Call),
      (Run.exec (Semantic.step config) (Semantic.start config) turns).calls[i]? = some call →
      call.settlements ≤ 1 ∧ ∀ turn call',
        (Semantic.step config (Run.exec (Semantic.step config) (Semantic.start config) turns) turn).calls[i]? =
          some call' →
        call'.sends = call.sends ∨ (∃ token, call'.sends = token :: call.sends) ∧
          call.sends ⊆ (Run.exec (Semantic.step config) (Semantic.start config) turns).disposed := by
  have hs := sound_reached codec hlegacy es
  have hinv : Semantic.Inv (Run.exec (Semantic.step config) (Semantic.start config) turns) :=
    Run.exec_inv_all (I := Semantic.Inv) (fun _ turn h => h.step turn) turns Semantic.inv_start
  refine ⟨?_, ?_, ?_, ?_⟩
  · intro e he result request hstate hrequest later hfew hspared
    exact receipt_answers hs he hstate hrequest hfew hspared
  · intro l hl
    have hentries : entries codec (reached codec legacy es).store = l := by
      unfold entries
      rw [hl]
    exact ⟨(hs.bounds l hl).1, (hs.bounds l hl).2, hentries ▸ hs.nodup⟩
  · intro kind operationId request script during hran
    exact perform_protects hs hran
  · intro i call hcall
    refine ⟨?_, fun turn call' hcall' => hinv.sends turn hcall hcall'⟩
    have hsettled := (hinv.calls call (List.mem_of_getElem? hcall)).settlements
    split at hsettled <;> omega

/-- The bytes of a journal are not looked at. -/
def Codec.unmeasured : Codec := ⟨Digest.plain, fun _ => 0, some⟩

/-- A command that is performed without a failure. -/
def command (operationId result : String) : Event :=
  .perform .command operationId "x" ⟨.ok, .result ⟨result, false⟩, .ok⟩

theorem operations_take_effect_once_sample :
    perform Codec.unmeasured (since Codec.unmeasured (reached Codec.unmeasured [] [command "a" "1"])
        [command "b" "2"]) .command "a" "y" ⟨.ok, .throws, .ok⟩ =
      ⟨since Codec.unmeasured (reached Codec.unmeasured [] [command "a" "1"]) [command "b" "2"],
      .conflict, none⟩ := by
  obtain ⟨hreceipt, -⟩ :=
    operations_take_effect_once Codec.unmeasured [] (by decide) [command "a" "1"] ⟨1, fun _ => false⟩ []
  obtain ⟨stored, -, hperform⟩ :=
    hreceipt ⟨.command, "a", "x", .complete ⟨"1", false⟩⟩ (by decide) ⟨"1", false⟩ "x" rfl rfl
    [command "b" "2"] (by decide) (by decide)
  exact hperform .command "y" ⟨.ok, .throws, .ok⟩

/-! ## A receipt that is pushed out early -/

/-- An operation whose Worker dies once its intent is stored, sixty-three others, and the operation again, which
is resumed. -/
def resumed : List Event :=
  [.perform .command "a" "x" ⟨.ok, .dies, .ok⟩] ++
    (List.range 63).map (fun n => command (String.ofList (List.replicate n 'b')) "0") ++ [command "a" "1"]

/-- The resumed operation is completed in its old place, so that the next one pushes its receipt out, and it is
run again. -/
theorem resumed_receipt_is_pushed_out :
    ⟨.command, "a", Codec.unmeasured.sha.of "x", .complete ⟨"1", false⟩⟩ ∈
        entries Codec.unmeasured (reached Codec.unmeasured [] resumed).store ∧
      ∃ later, (since Codec.unmeasured (reached Codec.unmeasured [] resumed) later).appends = 1 ∧
        (since Codec.unmeasured (reached Codec.unmeasured [] resumed) later).evicted = [] ∧
        ((perform Codec.unmeasured (since Codec.unmeasured (reached Codec.unmeasured [] resumed) later)
            .command "a" "x" ⟨.ok, .result ⟨"2", false⟩, .ok⟩).ran.isSome = true ∧
          (perform Codec.unmeasured (since Codec.unmeasured (reached Codec.unmeasured [] resumed) later)
            .command "a" "x" ⟨.ok, .result ⟨"2", false⟩, .ok⟩).answer = .returned ⟨"2", false⟩) := by
  refine ⟨by decide +kernel, [command "c" "0"], ?_⟩
  decide +kernel

end DenEdge.Operations
