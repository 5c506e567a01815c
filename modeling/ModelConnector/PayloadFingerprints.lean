import ModelConnector.Billing.Fingerprint
import ModelConnector.Billing.Intent

/-!
# Fingerprints tell payloads apart

A replay is compared with the request its key was first used for by their fingerprints alone. They
are equal for payloads that are the same up to the order of members, and only for those.
-/

namespace ModelConnector.Billing

variable {sha256Hex : String → String}

/-- A JSON payload. -/
structure JsonPayload where
  value : Json
  proper : value.Proper

/-- The payload as the script holds it. -/
def JsonPayload.payload (p : JsonPayload) : Payload :=
  .ofJson p.value

theorem stableStringify_eq_iff (p q : JsonPayload) :
    p.payload.stableStringify = q.payload.stableStringify ↔ p.value.Same q.value := by
  unfold JsonPayload.payload
  rw [Payload.stableStringify_ofJson, Payload.stableStringify_ofJson,
    Json.text_eq_iff_same p.proper q.proper]

theorem intentPayloadFingerprint_eq_iff (hsha : Function.Injective sha256Hex) (p q : JsonPayload) :
    intentPayloadFingerprint sha256Hex p.payload = intentPayloadFingerprint sha256Hex q.payload ↔
      p.value.Same q.value := by
  rw [← stableStringify_eq_iff]
  exact ⟨fun h ↦ String.ofList_injective (hsha h), fun h ↦ congrArg (sha256Hex ∘ String.ofList) h⟩

/-- A replay meets a row of another fingerprint just when it conflicts. -/
theorem resolveReplay_eq_payloadMismatch_iff {params : OpenIntentParams} {db : Db} {row : IntentRow}
    (hfound : db.requestIntentFindUnique params.apiKeyId params.intentKey = some row) :
    resolveReplay params db = .inl .payloadMismatch ↔
      row.payloadFingerprint ≠ params.payloadFingerprint := by
  unfold resolveReplay
  rw [hfound]
  by_cases heq : row.payloadFingerprint = params.payloadFingerprint
  · refine iff_of_false (fun h ↦ ?_) (not_not_intro heq)
    simp only [heq, bne_self_eq_false, Bool.false_eq_true, if_false] at h
    split at h
    · split at h <;> cases h
    all_goals cases h
  · refine iff_of_true ?_ heq
    simp only [bne_iff_ne.2 heq, if_true]

/-! ### Requests -/

/-- The part of a request that is fingerprinted, as one value. -/
def requestValue (connectorName : String) (request : List (String × Json)) : Json :=
  .obj (spreadAfter "connector" (.str connectorName) (fingerprinted request))

theorem filter_map_snd {α β : Type} (g : String → Bool) (f : α → β) (members : List (String × α)) :
    (members.map fun p ↦ (p.1, f p.2)).filter (fun p ↦ g p.1) =
      (members.filter fun p ↦ g p.1).map fun p ↦ (p.1, f p.2) :=
  List.filter_map

theorem ofJson_requestValue (connectorName : String) (request : List (String × Json)) :
    Payload.ofJson (requestValue connectorName request) =
      .obj (spreadAfter "connector" (.str connectorName)
        (fingerprinted (Payload.ofMembers request))) := by
  rw [requestValue, Payload.ofJson, Payload.ofMembers_eq_map, Payload.ofMembers_eq_map, fingerprinted,
    fingerprinted,
    filter_map_snd fun key ↦ key != "idempotencyKey" && key != "firstDispatchMeasurement",
    spreadAfter, spreadAfter, filter_map_snd fun key ↦ key != "connector", Members.lookup_map_snd,
    List.map_cons]
  congr 2
  cases List.lookup "connector" _ <;> rfl

theorem Proper.requestValue (connectorName : String) {request : List (String × Json)}
    (h : (Json.obj request).Proper) : (requestValue connectorName request).Proper := by
  have hsub : (fingerprinted request).Sublist request := List.filter_sublist
  refine .obj ?_ fun p hp ↦ ?_
  · refine List.nodup_cons.2 ⟨fun hmem ↦ ?_, ?_⟩
    · obtain ⟨p, hp, hkey⟩ := List.mem_map.1 hmem
      exact bne_iff_ne.1 (List.mem_filter.1 hp).2 hkey
    · exact h.keys.sublist ((List.filter_sublist.trans hsub).map Prod.fst)
  · rcases List.mem_cons.1 hp with rfl | hp
    · dsimp only
      cases hlookup : (fingerprinted request).lookup "connector" with
      | none => exact .str connectorName
      | some v => exact h.members _ (hsub.subset (Members.mem_of_lookup hlookup))
    · exact h.members p (hsub.subset (List.mem_filter.1 hp).1)

/-- The fingerprints of two requests are equal just when their parts that are fingerprinted are the
same up to the order of members. -/
theorem requestFingerprint_eq_iff (hsha : Function.Injective sha256Hex)
    {connectorName connectorName' : String} {request request' : List (String × Json)}
    (h : (Json.obj request).Proper) (h' : (Json.obj request').Proper) :
    requestFingerprint sha256Hex connectorName (Payload.ofMembers request) =
        requestFingerprint sha256Hex connectorName' (Payload.ofMembers request') ↔
      (requestValue connectorName request).Same (requestValue connectorName' request') := by
  unfold requestFingerprint
  rw [← ofJson_requestValue, ← ofJson_requestValue]
  exact intentPayloadFingerprint_eq_iff hsha ⟨_, Proper.requestValue connectorName h⟩
    ⟨_, Proper.requestValue connectorName' h'⟩

/-! ### The result -/

/-- **Fingerprints separate payloads.** Two JSON payloads have the same text if and only if they are
the same up to the order of members, and a replay under a key that is used conflicts with it if and
only if its payload is not the same as the one the key was used for. -/
theorem fingerprints_separate (hsha : Function.Injective sha256Hex) (p q : JsonPayload) :
    (p.payload.stableStringify = q.payload.stableStringify ↔ p.value.Same q.value) ∧
    ∀ (db : Db) (params : OpenIntentParams) (row : IntentRow),
      db.requestIntentFindUnique params.apiKeyId params.intentKey = some row →
      row.payloadFingerprint = intentPayloadFingerprint sha256Hex p.payload →
      params.payloadFingerprint = intentPayloadFingerprint sha256Hex q.payload →
        (resolveReplay params db = .inl .payloadMismatch ↔ ¬p.value.Same q.value) := by
  refine ⟨stableStringify_eq_iff p q, fun db params row hfound hrow hparams ↦ ?_⟩
  rw [resolveReplay_eq_payloadMismatch_iff hfound, hrow, hparams, Ne,
    intentPayloadFingerprint_eq_iff hsha]

/-- The parameters of an intent for a payload. -/
def intentFor (payload : Payload) : OpenIntentParams where
  apiKeyId := "key"
  intentKey := "order-1"
  clientSupplied := true
  payloadFingerprint := intentPayloadFingerprint id payload
  holdUsd := .finite 5

/-- A payload of two members, in one order and in the other. -/
def orderedPayload : JsonPayload where
  value := .obj [("model", .str "m"), ("stop", .arr [.null, .str "a,b"])]
  proper := .obj (by decide) (by
    rintro p (_ | ⟨_, _ | ⟨_, ⟨⟩⟩⟩)
    · exact .str _
    · exact .arr (by
        rintro v (_ | ⟨_, _ | ⟨_, ⟨⟩⟩⟩)
        exacts [.null, .str _]))

/-- The same payload, with its members in the other order. -/
def reorderedPayload : JsonPayload where
  value := .obj [("stop", .arr [.null, .str "a,b"]), ("model", .str "m")]
  proper := .obj (by decide) (by
    rintro p (_ | ⟨_, _ | ⟨_, ⟨⟩⟩⟩)
    · exact orderedPayload.proper.members ("stop", _) (by simp)
    · exact .str _)

/-- A replay with the members in another order does not conflict. -/
theorem fingerprints_separate_reordered :
    orderedPayload.value.Same reorderedPayload.value ∧
      resolveReplay (intentFor reorderedPayload.payload)
        { Db.empty with
          intents := ⟨[(intentFor orderedPayload.payload).row "i1" 5000000 0 1000],
            List.pairwise_singleton _ _⟩ } ≠ .inl .payloadMismatch := by
  have hboth := fingerprints_separate Function.injective_id orderedPayload reorderedPayload
  have hsame : orderedPayload.value.Same reorderedPayload.value := hboth.1.1 (by decide +kernel)
  exact ⟨hsame, fun hmismatch ↦ (hboth.2 _ _ _ (by rfl) rfl rfl).1 hmismatch hsame⟩

end ModelConnector.Billing
