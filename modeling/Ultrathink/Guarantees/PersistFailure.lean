import Ultrathink.Guarantees.TokenProvenance

/-!
# A token request whose state is not saved

An exchange and a refresh take a snapshot of the tables, spend the presented code or token, add
the new tokens and persist; when the write fails the snapshot is put back. The branch that meets a
spent code or token has none: its revocation stands.
-/

namespace Ultrathink.Guarantees.PersistFailure

open Library JsText Runs Source.OAuth

section Handlers
variable (o : Options) {e : Env}

theorem answerTokens_reply (access refresh grantId owner grantResource : Text) (scope : Option Text)
    (spent : Data) (facts : List Fact) (s : Store) :
    (answerTokens o e access refresh grantId owner grantResource scope spent facts s).1 =
      if e.saves then .tokens access refresh (accessTtlMs / 1000) scope else notSaved := by
  unfold answerTokens persist
  simp only
  split
  · rfl
  · rfl

/-- The tables that a token request reads agree. -/
structure SameTables (s s' : Store) : Prop where
  codes : s'.data.codes = s.data.codes
  tokens : s'.data.tokens = s.data.tokens
  grants : s'.data.grants = s.data.grants
  grantTypes : ∀ id, (s'.data.clients.get? id).map (·.grantTypes) =
    (s.data.clients.get? id).map (·.grantTypes)

variable {o}

theorem grantTypes_touchClient (s : Store) (id clientId : Text) (t : ℤ) :
    ((touchClient s clientId t).data.clients.get? id).map (·.grantTypes) =
      (s.data.clients.get? id).map (·.grantTypes) := by
  simp only [touchClient, OrderedMap.get?_modify]
  split
  · next same =>
    subst same
    rw [Option.map_map]
    rfl
  · rfl

variable {s s' : Store}

theorem SameTables.touch (same : SameTables s s') (id : Text) (t : ℤ) :
    SameTables (touchClient s id t) (touchClient s' id t) := by
  refine ⟨same.codes, same.tokens, same.grants, fun other => ?_⟩
  rw [grantTypes_touchClient, grantTypes_touchClient]
  exact same.grantTypes other

theorem SameTables.exchangeCode (same : SameTables s s') (form : Form)
    (clientId access refresh : Text) :
    (exchangeCode o e form clientId access refresh s').1 =
      (exchangeCode o e form clientId access refresh s).1 := by
  unfold Source.OAuth.exchangeCode
  simp only [same.codes]
  split
  · rfl
  · iterate 5
      split
      · rfl
    rw [answerTokens_reply, answerTokens_reply]

theorem SameTables.refreshGrant (same : SameTables s s') (form : Form)
    (clientId access refresh : Text) :
    (refreshGrant o e form clientId access refresh s').1 =
      (refreshGrant o e form clientId access refresh s).1 := by
  unfold Source.OAuth.refreshGrant
  simp only [same.tokens, same.grants]
  split
  · rfl
  · iterate 6
      split
      · rfl
    rw [answerTokens_reply, answerTokens_reply]

theorem SameTables.token (same : SameTables s s') (form : Form) (access refresh : Text) :
    (token o e form access refresh s').1 = (token o e form access refresh s).1 := by
  have types := same.grantTypes (form.text "client_id")
  have touched := same.touch (form.text "client_id") (e.now 0)
  unfold Source.OAuth.token
  simp only
  split
  · rfl
  · cases here : s.data.clients.get? (form.text "client_id") with
    | none =>
      rw [here, Option.map_none, Option.map_eq_none_iff] at types
      rw [types]
    | some client =>
      rw [here, Option.map_some] at types
      obtain ⟨client', there, alike⟩ := Option.map_eq_some_iff.mp types
      rw [there]
      simp only [alike]
      split
      · rfl
      · split
        · exact touched.exchangeCode form _ access refresh
        · exact touched.refreshGrant form _ access refresh

theorem SameTables.verifyAccessToken (same : SameTables s s') (t : ℤ) (presented : Text) :
    verifyAccessToken o s' t presented = verifyAccessToken o s t presented := by
  unfold Source.OAuth.verifyAccessToken
  rw [same.tokens, same.grants]

end Handlers

open TokenProvenance (flowOptions flowEnv flowStart flowStep flowLabels flowCallback flowVerifier)

/-- The environment of the flow when the disk is full. -/
def fullDisk : Env := { flowEnv with saves := false, now := fun _ => 2000 }

end Ultrathink.Guarantees.PersistFailure
