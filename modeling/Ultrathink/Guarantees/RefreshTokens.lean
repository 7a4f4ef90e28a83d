import Mathlib.Logic.Relation
import Ultrathink.Source.Mcp.Credentials

/-!
# Refresh tokens are not replayed

Whoever shares the store: a refresh token that a write has taken out of it is never sent
again, and a refresh puts in place of the tokens whose refresh token it sent what came for
that token.
-/

namespace Ultrathink.Guarantees.RefreshTokens

open Library JsText Mutex Processes Source.Mcp.Credentials
open Relation (ReflTransGen)

abbrev Procs := Taking Shared Stand Spot Result

/-- A write took the token out of the store. -/
def Gone (log : List Event) (provider : Provider) (token : Text) : Prop :=
  ∃ job before after, .wrote job before after ∈ log ∧ refreshOf before provider = some token ∧
    refreshOf after provider ≠ some token

def Clean : List Event → Prop
  | [] => True
  | .sent provider token :: earlier => ¬ Gone earlier provider token ∧ Clean earlier
  | _ :: earlier => Clean earlier

/-- After an exchange of its own, a refresh writes the tokens that came for the one that the
store holds; else it keeps the tokens. -/
def Refreshed (last : Option Event) (provider : Provider) (before after : Store) : Prop :=
  match last with
  | some (.exchanged provider' token tokens) => provider' = provider ∧
    refreshOf before provider = some token ∧ tokensOf after provider = some tokens
  | _ => tokensOf after provider = tokensOf before provider

/-- What a job may write, where `last` is the event before it. -/
def Rightful (last : Option Event) (job : Job) (before after : Store) : Prop :=
  (∀ provider, provider ≠ job.provider → after provider = before provider) ∧
  match job with
  | .complete provider _ tokens => tokensOf after provider = some tokens
  | .setApiKey provider _ => tokensOf after provider = none
  | .logout provider => tokensOf after provider = none
  | .begin_ provider _ _ _ _ _ => tokensOf after provider = tokensOf before provider
  | .resolve provider | .recover provider _ => Refreshed last provider before after

def Writes : List Event → Prop
  | [] => True
  | .wrote job before after :: earlier => Rightful earlier.head? job before after ∧ Writes earlier
  | _ :: earlier => Writes earlier

variable {store : Store} {job : Job} {spot : Spot} {provider : Provider} {now : Int}
  {x : Provider × Text} {token : Text} {tokens : OAuthTokens} {s' shared' : Shared}
  {call : Option Spot} {response : Response} {stand : Stand} {live : Nat → Bool}

theorem gone_cons {e : Event} {log : List Event}
    (other : ∀ job before after, e ≠ .wrote job before after) :
    Gone (e :: log) provider token ↔ Gone log provider token := by
  constructor
  · rintro ⟨job, before, after, mem, was, is⟩
    rcases List.mem_cons.mp mem with same | old
    · exact absurd same.symm (other job before after)
    · exact ⟨job, before, after, old, was, is⟩
  · rintro ⟨job, before, after, mem, was, is⟩
    exact ⟨job, before, after, .tail _ mem, was, is⟩

variable {a b before after : Store} {answer : Option (Text × Option Text)} {q : Nat}
  {result : Result} {later earlier : List Event} {t : Procs}

theorem refreshOf_congr (same : a provider = b provider) :
    refreshOf a provider = refreshOf b provider := by
  rw [refreshOf, refreshOf, tokensOf, tokensOf, same]

structure Kept (s : Shared) : Prop where
  stored : ∀ provider token, refreshOf s.file provider = some token →
    (provider, token) ∈ s.issued ∧ ¬ Gone s.log provider token
  gone : ∀ provider token, Gone s.log provider token → (provider, token) ∈ s.issued
  clean : Clean s.log
  writes : Writes s.log

/-- A token that was never in the store. -/
structure New (s : Shared) (x : Provider × Text) : Prop where
  issued : x ∈ s.issued
  absent : refreshOf s.file x.1 ≠ some x.2
  never : ¬ Gone s.log x.1 x.2

def refreshing : Job → Bool
  | .resolve _ => true
  | .recover _ _ => true
  | _ => false

/-- What a process in the section knows of the store. -/
def Knows (s : Shared) : Spot → Prop
  | .reading _ => True
  | .sending job store _ tokens token => store = s.file ∧ refreshing job = true ∧
    tokensOf store job.provider = some tokens ∧ truthy tokens.refreshToken = some token
  | .awaiting job store _ tokens token => store = s.file ∧ refreshing job = true ∧
    tokensOf store job.provider = some tokens ∧ truthy tokens.refreshToken = some token ∧
    s.log.head? = some (.sent job.provider token)
  | .registering job store => store = s.file ∧ ∃ provider a b c d e, job = .begin_ provider a b c d e
  | .writing job store _ => Rightful s.log.head? job s.file store

/-- The refresh token that a process is about to put into the store. -/
def bringsAt : Spot → Option (Provider × Text)
  | .reading (.complete provider _ tokens) => (truthy tokens.refreshToken).map (provider, ·)
  | .writing job store _ => (refreshOf store job.provider).map (job.provider, ·)
  | _ => none

def brings : Place Stand Spot Result → Option (Provider × Text)
  | .entering _ spot => bringsAt spot
  | .inside _ spot => bringsAt spot
  | _ => none

/-- It is new, or the one that the store holds and the write keeps. -/
def Brought (s : Shared) (place : Place Stand Spot Result) (x : Provider × Text) : Prop :=
  New s x ∨ refreshOf s.file x.1 = some x.2 ∧ ∃ stand spot, place = .inside stand spot

structure Inv (s : Procs) : Prop where
  alone : Alone s
  kept : Kept s.shared
  begun : ∀ p stand spot, s.places p = some (.entering stand spot) → ∃ job, spot = .reading job
  knows : ∀ p stand spot, s.places p = some (.inside stand spot) → Knows s.shared spot
  brought : ∀ p place x, s.places p = some place → brings place = some x → Brought s.shared place x
  apart : ∀ p q place place' x, s.places p = some place → s.places q = some place' →
    brings place = some x → brings place' = some x → p = q

variable {s : Procs} {shared : Shared} {p : Nat} {place : Place Stand Spot Result}

theorem Brought.issued {s : Shared} (kept : Kept s) (brought : Brought s place x) :
    x ∈ s.issued := by
  rcases brought with new | ⟨holds, -⟩
  · exact new.issued
  · exact (kept.stored x.1 x.2 holds).1

theorem Inv.put (inv : Inv s) (alone : Alone ({ s with shared := shared }.put p place))
    (kept : Kept shared) (begun : ∀ stand spot, place = .entering stand spot → ∃ job, spot = .reading job)
    (knows : ∀ stand spot, place = .inside stand spot → Knows shared spot)
    (brought : ∀ x, brings place = some x → Brought shared place x)
    (own : ∀ x, brings place = some x → ∀ q place', s.places q = some place' → brings place' = some x → q = p)
    (others : ∀ q stand spot, q ≠ p → s.places q = some (.inside stand spot) →
      Knows s.shared spot → Knows shared spot)
    (news : ∀ q place' x, q ≠ p → s.places q = some place' → brings place' = some x →
      Brought s.shared place' x → Brought shared place' x) :
    Inv ({ s with shared := shared }.put p place) := by
  refine ⟨alone, kept, fun q stand spot here => ?_, fun q stand spot here => ?_,
    fun q place' x here holds => ?_, fun q r place' place'' x here there one two => ?_⟩
  · rcases put_places here with ⟨rfl, same⟩ | ⟨-, was⟩
    · exact begun stand spot same.symm
    · exact inv.begun q stand spot was
  · rcases put_places here with ⟨rfl, same⟩ | ⟨other, was⟩
    · exact knows stand spot same.symm
    · exact others q stand spot other was (inv.knows q stand spot was)
  · rcases put_places here with ⟨rfl, rfl⟩ | ⟨other, was⟩
    · exact brought x holds
    · exact news q place' x other was holds (inv.brought q place' x was holds)
  · rcases put_places here with ⟨rfl, rfl⟩ | ⟨other, was⟩ <;>
      rcases put_places there with ⟨rfl, rfl⟩ | ⟨other', was'⟩
    · rfl
    · exact (own x one r place'' was' two).symm
    · exact own x two q place' was one
    · exact inv.apart q r place' place'' x was was' one two

theorem Inv.put_same (inv : Inv s) (alone : Alone ({ s with shared := s.shared }.put p place))
    (begun : ∀ stand spot, place = .entering stand spot → ∃ job, spot = .reading job)
    (knows : ∀ stand spot, place = .inside stand spot → Knows s.shared spot)
    (brought : ∀ x, brings place = some x → Brought s.shared place x)
    (own : ∀ x, brings place = some x → ∀ q place', s.places q = some place' → brings place' = some x → q = p) :
    Inv ({ s with shared := s.shared }.put p place) :=
  inv.put alone inv.kept begun knows brought own (fun _ _ _ _ _ known => known)
    fun _ _ _ _ _ _ held => held

variable (isHttps : Text → Bool)

/-- What the store read is made into before the next await. -/
def Planned (job : Job) (store : Store) : Spot → Prop
  | .reading _ => False
  | .sending job' store' _ tokens token => job' = job ∧ store' = store ∧ refreshing job = true ∧
    tokensOf store job.provider = some tokens ∧ truthy tokens.refreshToken = some token
  | .awaiting _ _ _ _ _ => False
  | .registering job' store' => job' = job ∧ store' = store ∧
    ∃ provider a b c d e, job = .begin_ provider a b c d e
  | .writing job' store' _ => job' = job ∧ Rightful (some (.read job)) job store store'

theorem rightful_same {job : Job} (store : Store)
    (keeps : refreshing job = true ∨ ∃ provider a b c d e, job = .begin_ provider a b c d e) :
    Rightful (some (.read job)) job store store := by
  refine ⟨fun _ _ => rfl, ?_⟩
  cases job with
  | resolve provider => rfl
  | recover provider failedHeader => rfl
  | begin_ provider => rfl
  | complete provider client tokens => simp [refreshing] at keeps
  | setApiKey provider key => simp [refreshing] at keeps
  | logout provider => simp [refreshing] at keeps

theorem update_others {other : Provider} {value : Option Credential}
    (different : other ≠ provider) : Function.update store provider value other = store other :=
  Function.update_of_ne different _ _

theorem tokensOf_update (store : Store) (provider : Provider) (client : OAuthClient)
    (tokens : Option OAuthTokens) (needsLogin : Option Text) (now : Int) :
    tokensOf (Function.update store provider (some (.oauth client tokens needsLogin now))) provider = tokens := by
  rw [tokensOf, Function.update_self]

theorem tokensOf_oauth {client : OAuthClient} {tokens : Option OAuthTokens}
    {needsLogin : Option Text}
    (here : store provider = some (.oauth client tokens needsLogin now)) :
    tokensOf store provider = tokens := by
  rw [tokensOf, here]

theorem plan_planned (planned : plan isHttps job store now = .inl spot) :
    Planned job store spot := by
  cases job with
  | resolve provider =>
    have same := @rightful_same (.resolve provider) store (.inl rfl)
    simp only [plan] at planned
    split at planned
    · next client tokens needsLogin updatedAt here =>
      split at planned
      · cases planned
        exact ⟨rfl, same⟩
      · split at planned
        · cases planned
          exact ⟨rfl, same⟩
        · split at planned
          · next token held =>
            cases planned
            exact ⟨rfl, rfl, rfl, tokensOf_oauth here, held⟩
          · cases planned
            exact ⟨rfl, same⟩
    · cases planned
      exact ⟨rfl, same⟩
  | recover provider failedHeader =>
    have same := @rightful_same (.recover provider failedHeader) store (.inl rfl)
    simp only [plan] at planned
    split at planned
    · next client tokens needsLogin updatedAt here =>
      split at planned
      · cases planned
        exact ⟨rfl, same⟩
      · split at planned
        · cases planned
          exact ⟨rfl, same⟩
        · split at planned
          · next token held =>
            cases planned
            exact ⟨rfl, rfl, rfl, tokensOf_oauth here, held⟩
          · cases planned
            refine ⟨rfl, fun other different => update_others different, ?_⟩
            dsimp only [Refreshed]
            rw [tokensOf_update, tokensOf_oauth here]
    · cases planned
      exact ⟨rfl, same⟩
  | begin_ provider redirectUri issuer authorizationEndpoint tokenEndpoint registrationEndpoint =>
    have begins : ∃ p a b c d e, Job.begin_ provider redirectUri issuer authorizationEndpoint
        tokenEndpoint registrationEndpoint = .begin_ p a b c d e := ⟨_, _, _, _, _, _, rfl⟩
    have register : ∀ spot, (if registrationEndpoint.isSome then
        Sum.inl (Spot.registering (.begin_ provider redirectUri issuer authorizationEndpoint
          tokenEndpoint registrationEndpoint) store) else Sum.inr Result.thrown) = .inl spot →
        Planned (.begin_ provider redirectUri issuer authorizationEndpoint tokenEndpoint
          registrationEndpoint) store spot := by
      intro spot registers
      split at registers
      · cases registers
        exact ⟨rfl, rfl, begins⟩
      · cases registers
    simp only [plan] at planned
    split at planned
    · split at planned
      · cases planned
        exact ⟨rfl, rightful_same store (.inr begins)⟩
      · exact register spot planned
    · exact register spot planned
  | complete provider client tokens =>
    cases planned
    exact ⟨rfl, fun other different => update_others different, tokensOf_update _ _ _ _ _ _⟩
  | setApiKey provider key =>
    cases planned
    refine ⟨rfl, fun other different => update_others different, ?_⟩
    simp [tokensOf]
  | logout provider =>
    cases planned
    refine ⟨rfl, fun other different => update_others different, ?_⟩
    simp [tokensOf]

theorem registered_planned (made : registered job store answer now = .inl spot) :
    ∃ after result, spot = .writing job after result ∧ Rightful (some (.read job)) job store after := by
  unfold registered at made
  split at made
  · next provider redirectUri issuer authorizationEndpoint tokenEndpoint endpoint clientId secret =>
    dsimp only at made
    split at made
    · next absent =>
      cases made
      refine ⟨_, _, rfl, fun other different => update_others different, ?_⟩
      dsimp only
      rw [tokensOf_update, tokensOf, absent]
    · next client needsLogin updatedAt here =>
      cases made
      refine ⟨_, _, rfl, fun other different => update_others different, ?_⟩
      dsimp only
      rw [tokensOf_update, tokensOf, here]
    · cases made
      exact ⟨_, _, rfl, rightful_same store (.inr ⟨_, _, _, _, _, _, rfl⟩)⟩
  · cases made

/-- The answer to a refresh token: the tokens that came, or a login that is over. -/
theorem refreshLocked_planned {client : OAuthClient} {s : Shared}
    (refreshes : refreshing job = true) (held : tokensOf store job.provider = some tokens)
    (sends : truthy tokens.refreshToken = some token)
    (sent : s.log.head? = some (.sent job.provider token))
    (made : refreshLocked job store client tokens token response now = .inl spot) :
    ∃ after result, spot = .writing job after result ∧
      Rightful (noteExchange job.provider token response now s).log.head? job store after ∧
      (tokensOf after job.provider = some tokens ∨ ∃ fresh,
        tokenRequest (some token) response now = .ok fresh ∧ tokensOf after job.provider = some fresh) := by
  have own : refreshOf store job.provider = some token := by
    rw [refreshOf, held]
    exact sends
  unfold refreshLocked at made
  unfold noteExchange
  cases answered : tokenRequest (some token) response now with
  | ok fresh =>
    simp only [answered] at made
    cases made
    have now_ := tokensOf_update store job.provider client (some fresh) none now
    refine ⟨_, _, rfl, ⟨fun other different => update_others different, ?_⟩, .inr ⟨fresh, rfl, now_⟩⟩
    cases job with
    | resolve provider => exact ⟨rfl, own, now_⟩
    | recover provider failedHeader => exact ⟨rfl, own, now_⟩
    | _ => cases refreshes
  | error error =>
    simp only [answered] at made
    split at made
    · cases made
      have now_ := tokensOf_update store job.provider client (some tokens) (some (loginReason error)) now
      refine ⟨_, _, rfl, ⟨fun other different => update_others different, ?_⟩, .inl now_⟩
      dsimp only
      rw [sent]
      cases job with
      | resolve provider => exact now_.trans held.symm
      | recover provider failedHeader => exact now_.trans held.symm
      | _ => cases refreshes
    · cases made

/-- No write, and no token is taken back. -/
structure Grown (s s' : Shared) : Prop where
  file : s'.file = s.file
  gone : ∀ provider token, Gone s'.log provider token ↔ Gone s.log provider token
  issued : ∀ x ∈ s.issued, x ∈ s'.issued

theorem Grown.refl (s : Shared) : Grown s s := ⟨rfl, fun _ _ => .rfl, fun _ mem => mem⟩

theorem New.grown {s : Shared} (grown : Grown s s') (new : New s x) : New s' x := by
  refine ⟨grown.issued x new.issued, ?_, fun gone => new.never ((grown.gone _ _).mp gone)⟩
  rw [grown.file]
  exact new.absent

theorem Brought.grown {s : Shared} (grown : Grown s s') (brought : Brought s place x) :
    Brought s' place x := by
  rcases brought with new | ⟨holds, inside⟩
  · exact .inl (new.grown grown)
  · rw [← grown.file] at holds
    exact .inr ⟨holds, inside⟩

theorem Kept.grown {s : Shared} (kept : Kept s) (grown : Grown s s') (clean : Clean s'.log)
    (writes : Writes s'.log) : Kept s' where
  stored provider token holds := by
    rw [grown.file] at holds
    obtain ⟨issued, never⟩ := kept.stored provider token holds
    exact ⟨grown.issued _ issued, fun gone => never ((grown.gone _ _).mp gone)⟩
  gone provider token gone := grown.issued _ (kept.gone provider token ((grown.gone _ _).mp gone))
  clean := clean
  writes := writes

theorem issue_grown {provider : Provider} {response : Response} {s s' : Shared}
    (issues : issue provider response s = some s') :
    Grown s s' ∧ s'.log = s.log ∧ ∀ accessToken given expiresIn scope token,
      response = .granted accessToken given expiresIn scope → truthy given = some token →
      (provider, token) ∉ s.issued ∧ (provider, token) ∈ s'.issued := by
  unfold issue at issues
  split at issues
  · next accessToken given expiresIn scope =>
    split at issues
    · next absent =>
      cases issues
      refine ⟨.refl s, rfl, fun _ _ _ _ token same has => ?_⟩
      cases same
      rw [absent] at has
      cases has
    · next token has =>
      split at issues
      · cases issues
      · next fresh =>
        cases issues
        refine ⟨⟨rfl, fun _ _ => .rfl, fun x mem => .tail _ mem⟩, rfl, fun _ _ _ _ token' same has' => ?_⟩
        cases same
        rw [has] at has'
        cases has'
        exact ⟨fresh, .head _⟩
  · next other =>
    cases issues
    exact ⟨.refl s, rfl, fun accessToken given expiresIn scope _ same => absurd same (other _ _ _ _)⟩

theorem new_of_fresh {s : Shared} (kept : Kept s) (grown : Grown s s') (fresh : x ∉ s.issued)
    (given : x ∈ s'.issued) : New s' x := by
  refine ⟨given, fun holds => ?_, fun gone => ?_⟩
  · rw [grown.file] at holds
    exact fresh (kept.stored x.1 x.2 holds).1
  · exact fresh (kept.gone x.1 x.2 ((grown.gone _ _).mp gone))

theorem Inv.unbrought (inv : Inv s) (fresh : x ∉ s.shared.issued) (here : s.places q = some place) :
    brings place ≠ some x :=
  fun holds => fresh ((inv.brought q place x here holds).issued inv.kept)

theorem Inv.sole (inv : Inv s) (here : s.places p = some (.inside stand spot))
    (holds : refreshOf s.shared.file x.1 = some x.2) (there : s.places q = some place)
    (brought : brings place = some x) : q = p := by
  rcases inv.brought q place x there brought with new | ⟨-, stand', spot', rfl⟩
  · exact absurd holds new.absent
  · exact inv.alone q p _ _ _ _ there here

theorem alone_put (inv : Inv s) (here : s.places p = some (.inside stand spot)) :
    Alone ({ s with shared := shared }.put p place) := by
  intro a b o o' l l' first second
  have back : ∀ q o l, ({ s with shared := shared }.put p place).places q = some (.inside o l) →
      ∃ o l, s.places q = some (.inside o l) := by
    intro q o l inside
    rcases put_inside inside with ⟨rfl, -⟩ | old
    · exact ⟨_, _, here⟩
    · exact ⟨_, _, old⟩
  obtain ⟨_, _, one⟩ := back a o l first
  obtain ⟨_, _, two⟩ := back b o' l' second
  exact inv.alone _ _ _ _ _ _ one two

theorem Inv.inside {stand' : Stand} {next : Spot ⊕ Result} (inv : Inv s)
    (here : s.places p = some (.inside stand spot)) (grown : Grown s.shared shared)
    (clean : Clean shared.log) (writes : Writes shared.log)
    (knows : ∀ spot, next = .inl spot → Knows shared spot)
    (brought : ∀ spot x, next = .inl spot → bringsAt spot = some x →
      (New shared x ∨ refreshOf shared.file x.1 = some x.2) ∧
        ∀ q place', s.places q = some place' → brings place' = some x → q = p) :
    Inv ({ s with shared := shared }.put p (.stepped stand' next)) := by
  refine inv.put (alone_put inv here) (inv.kept.grown grown clean writes) ?_ ?_ ?_ ?_ ?_ ?_
  · intro o l same
    cases next <;> cases same
  · intro o l same
    cases next with
    | inl spot =>
      cases same
      exact knows _ rfl
    | inr result => cases same
  · intro x brings_
    cases next with
    | inl spot =>
      rcases (brought spot x rfl brings_).1 with new | holds
      · exact .inl new
      · exact .inr ⟨holds, _, _, rfl⟩
    | inr result => cases brings_
  · intro x brings_ q place' there holds
    cases next with
    | inl spot => exact (brought spot x rfl brings_).2 q place' there holds
    | inr result => cases brings_
  · intro q o l other there
    exact absurd (inv.alone _ _ _ _ _ _ there here) other
  · exact fun q place' x _ _ _ held => held.grown grown

theorem refreshOf_tokens (same : tokensOf a provider = tokensOf b provider) :
    refreshOf a provider = refreshOf b provider := by
  rw [refreshOf, refreshOf, same]

theorem refreshOf_some (held : tokensOf store provider = some tokens) :
    refreshOf store provider = truthy tokens.refreshToken := by
  rw [refreshOf, held]
  rfl

theorem refreshOf_none (held : tokensOf store provider = none) :
    refreshOf store provider = none := by
  rw [refreshOf, held]
  rfl

/-- Without an exchange a job brings the token of the store, or the one of its login. -/
theorem planned_brings (planned : Planned job store spot) (brings_ : bringsAt spot = some x) :
    refreshOf store x.1 = some x.2 ∨ bringsAt (.reading job) = some x := by
  cases spot with
  | reading job => cases planned
  | sending => cases brings_
  | awaiting => cases brings_
  | registering => cases brings_
  | writing job' after result =>
    obtain ⟨rfl, -, rightful⟩ := planned
    obtain ⟨token, holds, rfl⟩ := Option.map_eq_some_iff.mp brings_
    cases job' with
    | resolve provider => exact .inl ((refreshOf_tokens rightful).symm.trans holds)
    | recover provider failedHeader => exact .inl ((refreshOf_tokens rightful).symm.trans holds)
    | begin_ provider => exact .inl ((refreshOf_tokens rightful).symm.trans holds)
    | complete provider client tokens =>
      right
      have own := (refreshOf_some rightful).symm.trans holds
      rw [bringsAt, own]
      rfl
    | setApiKey provider key => cases (refreshOf_none rightful).symm.trans holds
    | logout provider => cases (refreshOf_none rightful).symm.trans holds

theorem rightful_begin {last last' : Option Event}
    (begins : ∃ provider a b c d e, job = .begin_ provider a b c d e)
    (rightful : Rightful last job before after) : Rightful last' job before after := by
  obtain ⟨_, _, _, _, _, _, rfl⟩ := begins
  exact rightful

def noteRead (job : Job) (s : Shared) : Shared := { s with log := .read job :: s.log }

theorem knows_of_planned {s : Shared} (planned : Planned job s.file spot) :
    Knows (noteRead job s) spot := by
  cases spot with
  | reading job => trivial
  | sending job' store client tokens token =>
    obtain ⟨rfl, rfl, refreshes, held, sends⟩ := planned
    exact ⟨rfl, refreshes, held, sends⟩
  | awaiting => cases planned
  | registering job' store =>
    obtain ⟨rfl, rfl, begins⟩ := planned
    exact ⟨rfl, begins⟩
  | writing job' after result =>
    obtain ⟨rfl, rightful⟩ := planned
    exact rightful

variable {stand stand' : Stand} {c : Choice} {next : Spot ⊕ Result}

theorem reading_inv (inv : Inv s) (here : s.places p = some (.inside stand (.reading job))) :
    Inv ({ s with shared := noteRead job s.shared }.put p
      (.stepped stand (plan isHttps job s.shared.file now))) := by
  have grown : Grown s.shared (noteRead job s.shared) :=
    ⟨rfl, fun _ _ => gone_cons (by simp), fun _ mem => mem⟩
  refine inv.inside here grown inv.kept.clean inv.kept.writes ?_ ?_
  · intro spot planned
    exact knows_of_planned (plan_planned isHttps planned)
  · intro spot x planned brings_
    rcases planned_brings (plan_planned isHttps planned) brings_ with holds | own
    · exact ⟨.inr holds, fun q place' there brought => inv.sole here holds there brought⟩
    · refine ⟨?_, fun q place' there brought => (inv.apart p q _ _ x here there own brought).symm⟩
      rcases inv.brought p _ x here own with new | ⟨holds, -⟩
      · exact .inl (new.grown grown)
      · exact .inr holds

theorem sending_inv {client : OAuthClient} (inv : Inv s)
    (here : s.places p = some (.inside stand (.sending job store client tokens token))) :
    Inv ({ s with shared := { s.shared with log := .sent job.provider token :: s.shared.log } }.put p
      (.stepped stand (.inl (.awaiting job store client tokens token)))) := by
  obtain ⟨rfl, refreshes, held, sends⟩ := inv.knows p stand _ here
  have holds : refreshOf s.shared.file job.provider = some token := (refreshOf_some held).trans sends
  have grown : Grown s.shared { s.shared with log := .sent job.provider token :: s.shared.log } :=
    ⟨rfl, fun _ _ => gone_cons (by simp), fun _ mem => mem⟩
  refine inv.inside here grown ⟨(inv.kept.stored _ _ holds).2, inv.kept.clean⟩ inv.kept.writes ?_ ?_
  · rintro spot ⟨⟩
    exact ⟨rfl, refreshes, held, sends, rfl⟩
  · rintro spot x ⟨⟩ brings_
    cases brings_

theorem noteExchange_grown (provider : Provider) (token : Text) (response : Response) (now : Int) (s : Shared) :
    Grown s (noteExchange provider token response now s) ∧
      (Clean s.log → Clean (noteExchange provider token response now s).log) ∧
      (Writes s.log → Writes (noteExchange provider token response now s).log) := by
  unfold noteExchange
  split
  · exact ⟨⟨rfl, fun _ _ => gone_cons (by simp), fun _ mem => mem⟩, id, id⟩
  · exact ⟨.refl s, id, id⟩

theorem Grown.trans {a b c : Shared} (one : Grown a b) (two : Grown b c) : Grown a c :=
  ⟨two.file.trans one.file, fun provider token => (two.gone provider token).trans (one.gone provider token),
    fun x mem => two.issued x (one.issued x mem)⟩

theorem tokenRequest_refresh {sent : Option Text}
    (answered : tokenRequest sent response now = .ok tokens) :
    ∃ accessToken given expiresIn scope, response = .granted accessToken given expiresIn scope ∧
      tokens.refreshToken = given.or sent := by
  unfold tokenRequest at answered
  split at answered
  · split at answered
    · cases answered
      exact ⟨_, _, _, _, rfl, rfl⟩
    · cases answered
  · cases answered
  · cases answered

theorem awaiting_inv {client : OAuthClient} {issued : Shared} (inv : Inv s)
    (here : s.places p = some (.inside stand (.awaiting job store client tokens token)))
    (issues : issue job.provider response s.shared = some issued) :
    Inv ({ s with shared := noteExchange job.provider token response now issued }.put p
      (.stepped stand (refreshLocked job store client tokens token response now))) := by
  obtain ⟨rfl, refreshes, held, sends, sent⟩ := inv.knows p stand _ here
  have holds : refreshOf s.shared.file job.provider = some token := (refreshOf_some held).trans sends
  obtain ⟨grown, sameLog, fresh⟩ := issue_grown issues
  rw [← sameLog] at sent
  obtain ⟨noted, clean, writes⟩ := noteExchange_grown job.provider token response now issued
  have both := grown.trans noted
  rw [sameLog] at clean writes
  refine inv.inside here both (clean inv.kept.clean) (writes inv.kept.writes) ?_ ?_
  · intro spot made
    obtain ⟨after, result, rfl, rightful, -⟩ := refreshLocked_planned refreshes held sends sent made
    rw [← both.file] at rightful
    exact rightful
  · intro spot x made brings_
    obtain ⟨after, result, rfl, -, became⟩ := refreshLocked_planned refreshes held sends sent made
    obtain ⟨token', brought, rfl⟩ := Option.map_eq_some_iff.mp brings_
    have stays : ∀ {x : Provider × Text}, x = (job.provider, token) →
        (New (noteExchange job.provider token response now issued) x ∨
          refreshOf (noteExchange job.provider token response now issued).file x.1 = some x.2) ∧
        ∀ q place', s.places q = some place' → brings place' = some x → q = p := by
      rintro x rfl
      refine ⟨.inr ?_, fun q place' there brings_ => inv.sole here holds there brings_⟩
      rw [both.file]
      exact holds
    rcases became with same | ⟨answer, answered, became⟩
    · have kept := (refreshOf_some same).symm.trans brought
      rw [sends] at kept
      cases kept
      exact stays rfl
    · have kept := (refreshOf_some became).symm.trans brought
      obtain ⟨accessToken, given, expiresIn, scope, granted, refresh⟩ := tokenRequest_refresh answered
      rw [refresh] at kept
      cases given with
      | none =>
        have same : token' = token := by
          rw [Option.none_or, truthy, Option.filter_eq_some_iff] at kept
          exact (Option.some.inj kept.1).symm
        exact stays (by rw [same])
      | some given =>
        rw [Option.some_or] at kept
        obtain ⟨before, since⟩ := fresh _ _ _ _ token' granted kept
        refine ⟨.inl (new_of_fresh inv.kept both before (noted.issued _ since)), ?_⟩
        intro q place' there holds'
        exact absurd holds' (inv.unbrought before there)

theorem registering_inv (inv : Inv s)
    (here : s.places p = some (.inside stand (.registering job store))) :
    Inv ({ s with shared := s.shared }.put p (.stepped stand (registered job store answer now))) := by
  obtain ⟨rfl, begins⟩ := inv.knows p stand _ here
  refine inv.inside here (.refl _) inv.kept.clean inv.kept.writes ?_ ?_
  · intro spot made
    obtain ⟨after, result, rfl, rightful⟩ := registered_planned made
    exact rightful_begin begins rightful
  · intro spot x made brings_
    obtain ⟨after, result, rfl, rightful⟩ := registered_planned made
    have planned : Planned job s.shared.file (.writing job after result) := ⟨rfl, rightful⟩
    rcases planned_brings planned brings_ with holds | own
    · exact ⟨.inr holds, fun q place' there brought => inv.sole here holds there brought⟩
    · obtain ⟨_, _, _, _, _, _, rfl⟩ := begins
      cases own

def wrote (job : Job) (store : Store) (s : Shared) : Shared :=
  { s with file := store, log := .wrote job s.file store :: s.log }

theorem gone_wrote {s : Shared} :
    Gone (wrote job store s).log provider token ↔ Gone s.log provider token ∨
      refreshOf s.file provider = some token ∧ refreshOf store provider ≠ some token := by
  constructor
  · rintro ⟨job', before, after, mem, was, is⟩
    rcases List.mem_cons.mp mem with same | old
    · cases same
      exact .inr ⟨was, is⟩
    · exact .inl ⟨job', before, after, old, was, is⟩
  · rintro (⟨job', before, after, mem, was, is⟩ | ⟨was, is⟩)
    · exact ⟨job', before, after, .tail _ mem, was, is⟩
    · exact ⟨job, s.file, store, .head _, was, is⟩

theorem wrote_kept {s : Shared} (kept : Kept s) (rightful : Rightful s.log.head? job s.file store)
    (brought : ∀ token, refreshOf store job.provider = some token →
      New s (job.provider, token) ∨ refreshOf s.file job.provider = some token) :
    Kept (wrote job store s) where
  stored provider token holds := by
    have before : New s (provider, token) ∨ refreshOf s.file provider = some token := by
      by_cases same : provider = job.provider
      · subst same
        exact brought token holds
      · exact .inr ((refreshOf_congr (rightful.1 provider same)).symm.trans holds)
    rcases before with new | had
    · refine ⟨new.issued, fun gone => ?_⟩
      rcases gone_wrote.mp gone with old | ⟨-, lost⟩
      · exact new.never old
      · exact lost holds
    · obtain ⟨issued, never⟩ := kept.stored provider token had
      refine ⟨issued, fun gone => ?_⟩
      rcases gone_wrote.mp gone with old | ⟨-, lost⟩
      · exact never old
      · exact lost holds
  gone provider token gone := by
    rcases gone_wrote.mp gone with old | ⟨had, -⟩
    · exact kept.gone provider token old
    · exact (kept.stored provider token had).1
  clean := kept.clean
  writes := ⟨rightful, kept.writes⟩

theorem writing_inv (inv : Inv s)
    (here : s.places p = some (.inside stand (.writing job store result))) :
    Inv ({ s with shared := wrote job store s.shared }.put p (.leaving stand (.returned result))) := by
  have rightful : Rightful s.shared.log.head? job s.shared.file store := inv.knows p stand _ here
  have own : ∀ token, refreshOf store job.provider = some token →
      brings (.inside stand (.writing job store result)) = some (job.provider, token) := by
    intro token holds
    rw [brings, bringsAt, holds]
    rfl
  have kept : Kept (wrote job store s.shared) := by
    refine wrote_kept inv.kept rightful fun token holds => ?_
    rcases inv.brought p _ _ here (own token holds) with new | ⟨had, -⟩
    · exact .inl new
    · exact .inr had
  refine inv.put (alone_put inv here) kept (by simp) (by simp) (by simp [brings]) (by simp [brings]) ?_ ?_
  · intro q o l other there
    exact absurd (inv.alone _ _ _ _ _ _ there here) other
  · intro q place' x other there holds brought
    rcases brought with new | ⟨-, _, _, rfl⟩
    · refine .inl ⟨new.issued, fun stored => ?_, fun gone => ?_⟩
      · by_cases same : x.1 = job.provider
        · have mine := own x.2 (same ▸ stored)
          rw [← same] at mine
          exact other (inv.apart q p _ _ x there here holds mine)
        · exact new.absent ((refreshOf_congr (rightful.1 x.1 same)).symm.trans stored)
      · rcases gone_wrote.mp gone with old | ⟨had, -⟩
        · exact new.never old
        · exact new.absent had
    · exact absurd (inv.alone _ _ _ _ _ _ there here) other

theorem thrown_inv (inv : Inv s) (here : s.places p = some (.inside stand spot)) :
    Inv ({ s with shared := s.shared }.put p (.stepped stand (.inr result))) := by
  refine inv.inside here (.refl _) inv.kept.clean inv.kept.writes ?_ ?_
  · intro spot made
    cases made
  · intro spot x made
    cases made

theorem inner_inv {shared : Shared} (inv : Inv s) (here : s.places p = some (.inside stand spot))
   
    (moved : Source.Mcp.Credentials.inner isHttps live p s.shared stand spot c = some (shared, stand', next)) :
    Inv ({ s with shared := shared }.put p (.stepped stand' next)) := by
  cases spot with
  | reading job =>
    cases c with
    | go now =>
      cases moved
      exact reading_inv isHttps inv here
    | _ => cases moved
  | sending job store client tokens token =>
    cases c with
    | go now =>
      cases moved
      exact sending_inv inv here
    | _ => cases moved
  | awaiting job store client tokens token =>
    cases c with
    | answered response now =>
      rw [Source.Mcp.Credentials.inner, Option.map_eq_some_iff] at moved
      obtain ⟨issued, issues, same⟩ := moved
      simp only [Prod.mk.injEq] at same
      obtain ⟨rfl, rfl, rfl⟩ := same
      exact awaiting_inv inv here issues
    | _ => cases moved
  | registering job store =>
    cases c with
    | registered answer now =>
      cases moved
      exact registering_inv inv here
    | _ => cases moved
  | writing job store result =>
    cases c with
    | written fails =>
      cases fails with
      | true =>
        simp only [Source.Mcp.Credentials.inner, if_true, Option.some.injEq, Prod.mk.injEq] at moved
        obtain ⟨rfl, rfl, rfl⟩ := moved
        exact thrown_inv inv here
      | false =>
        simp only [Source.Mcp.Credentials.inner, Bool.false_eq_true, if_false, Option.some.injEq, Prod.mk.injEq] at moved
        obtain ⟨rfl, rfl, rfl⟩ := moved
        exact writing_inv inv here
    | _ => cases moved

theorem outer_called (kept : Kept s.shared)
    (moved : outer live p s.shared stand c = some (shared, stand', call)) :
    Grown s.shared shared ∧ shared.log = s.shared.log ∧ (∀ spot, call = some spot → ∃ job, spot = .reading job) ∧
      ∀ spot x, call = some spot → bringsAt spot = some x → x ∉ s.shared.issued ∧ New shared x := by
  have plain : ∀ {stand'' : Stand} {call' : Option Spot},
      some (s.shared, stand'', call') = some (shared, stand', call) →
      (∀ spot, call' = some spot → ∃ job, spot = .reading job ∧ bringsAt spot = none) →
      Grown s.shared shared ∧ shared.log = s.shared.log ∧
        (∀ spot, call = some spot → ∃ job, spot = .reading job) ∧
        ∀ spot x, call = some spot → bringsAt spot = some x → x ∉ s.shared.issued ∧ New shared x := by
    intro stand'' call' same reads
    cases same
    refine ⟨.refl _, rfl, fun spot called => ?_, fun spot x called brings_ => ?_⟩
    · obtain ⟨job, is, -⟩ := reads spot called
      exact ⟨job, is⟩
    · obtain ⟨job, -, none_⟩ := reads spot called
      rw [none_] at brings_
      cases brings_
  have nothing : ∀ spot, (none : Option Spot) = some spot →
      ∃ job, spot = .reading job ∧ bringsAt spot = none := by
    intro spot called
    cases called
  have reads : ∀ job, bringsAt (.reading job) = none → ∀ spot, some (Spot.reading job) = some spot →
      ∃ job, spot = .reading job ∧ bringsAt spot = none := by
    rintro job none_ _ ⟨⟩
    exact ⟨job, rfl, none_⟩
  cases stand with
  | idle =>
    cases c with
    | resolve provider now =>
      simp only [outer] at moved
      split at moved
      · exact plain moved nothing
      · split at moved
        · exact plain moved nothing
        · exact plain moved (reads (.resolve provider) rfl)
    | call job =>
      cases job with
      | recover provider failedHeader =>
        simp only [outer] at moved
        split at moved
        · exact plain moved (reads (.recover provider failedHeader) rfl)
        · exact plain moved nothing
      | begin_ provider a b c d e =>
        rw [outer] at moved
        exact plain moved (reads (.begin_ provider a b c d e) rfl)
      | setApiKey provider key =>
        rw [outer] at moved
        exact plain moved (reads (.setApiKey provider key) rfl)
      | logout provider =>
        rw [outer] at moved
        exact plain moved (reads (.logout provider) rfl)
      | resolve => cases moved
      | complete => cases moved
    | login provider client =>
      rw [outer] at moved
      exact plain moved nothing
    | _ => cases moved
  | exchangingCode provider client =>
    cases c with
    | answered response now =>
      rw [outer, Option.map_eq_some_iff] at moved
      obtain ⟨issued, issues, same⟩ := moved
      obtain ⟨grown, sameLog, fresh⟩ := issue_grown issues
      cases answered : tokenRequest none response now with
      | ok tokens =>
        simp only [answered, Prod.mk.injEq] at same
        obtain ⟨rfl, rfl, rfl⟩ := same
        refine ⟨grown, sameLog, ?_, ?_⟩
        · rintro _ ⟨⟩
          exact ⟨_, rfl⟩
        · rintro _ x ⟨⟩ brings_
          obtain ⟨token, held, rfl⟩ := Option.map_eq_some_iff.mp brings_
          obtain ⟨accessToken, given, expiresIn, scope, granted, refresh⟩ := tokenRequest_refresh answered
          rw [refresh, Option.or_none] at held
          obtain ⟨before, since⟩ := fresh _ _ _ _ token granted held
          exact ⟨before, new_of_fresh kept grown before since⟩
      | error error =>
        simp only [answered, Prod.mk.injEq] at same
        obtain ⟨rfl, rfl, rfl⟩ := same
        refine ⟨grown, sameLog, fun spot called => ?_, fun spot x called => ?_⟩
        · cases called
        · cases called
    | _ => cases moved
  | calling => cases c <;> cases moved

theorem outer_inv (inv : Inv s)
    (moved : outer live p s.shared stand c = some (shared, stand', call))
    (alone : Alone ({ s with shared := shared }.put p (.called stand' call))) :
    Inv ({ s with shared := shared }.put p (.called stand' call)) := by
  obtain ⟨grown, sameLog, reads, fresh⟩ := outer_called inv.kept moved
  refine inv.put alone ?_ ?_ ?_ ?_ ?_ ?_ ?_
  · refine inv.kept.grown grown ?_ ?_
    · rw [sameLog]
      exact inv.kept.clean
    · rw [sameLog]
      exact inv.kept.writes
  · intro o l same
    cases call with
    | none => cases same
    | some spot =>
      cases same
      exact reads _ rfl
  · intro o l same
    cases call <;> cases same
  · intro x brings_
    cases call with
    | none => cases brings_
    | some spot => exact .inl (fresh spot x rfl brings_).2
  · intro x brings_ q place' there holds
    cases call with
    | none => cases brings_
    | some spot => exact absurd holds (inv.unbrought (fresh spot x rfl brings_).1 there)
  · intro q o l other there known
    cases l with
    | reading => trivial
    | sending => rwa [Knows, grown.file]
    | awaiting => rwa [Knows, grown.file, sameLog]
    | registering => rwa [Knows, grown.file]
    | writing => rwa [Knows, grown.file, sameLog]
  · exact fun q place' x _ _ _ held => held.grown grown

theorem turn_inv {s : Procs} (turn : (processes isHttps).Turn s t) (inv : Inv s) : Inv t := by
  have alone := turn_alone turn inv.alone
  have quiet : ∀ {p : Nat} {place : Place Stand Spot Result},
      Alone ({ s with shared := s.shared }.put p place) → brings place = none →
      (∀ stand spot, place ≠ .entering stand spot) → (∀ stand spot, place ≠ .inside stand spot) →
      Inv ({ s with shared := s.shared }.put p place) := by
    intro p place alone none_ entering inside
    refine inv.put_same alone ?_ ?_ ?_ ?_
    · exact fun stand spot same => absurd same (entering stand spot)
    · exact fun stand spot same => absurd same (inside stand spot)
    · intro x brings_
      rw [none_] at brings_
      cases brings_
    · intro x brings_
      rw [none_] at brings_
      cases brings_
  cases turn with
  | spawn p absent => exact quiet alone rfl (by simp) (by simp)
  | crash p =>
    exact ⟨alone, inv.kept, fun q stand spot here => inv.begun q stand spot (update_none here),
      fun q stand spot here => inv.knows q stand spot (update_none here),
      fun q place x here => inv.brought q place x (update_none here),
      fun q r place place' x here there =>
        inv.apart q r place place' x (update_none here) (update_none there)⟩
  | world c shared moved => cases moved
  | outer p stand stand' c shared call here moved =>
    have steps : outer s.live p s.shared stand c = some (shared, stand', call) := moved
    exact outer_inv inv steps alone
  | enter p stand spot here free =>
    obtain ⟨job, rfl⟩ := inv.begun p stand spot here
    refine inv.put_same alone (by simp) ?_ ?_ ?_
    · rintro _ _ ⟨⟩
      trivial
    · intro x brings_
      rcases inv.brought p _ x here brings_ with new | ⟨holds, -⟩
      · exact .inl new
      · exact .inr ⟨holds, _, _, rfl⟩
    · exact fun x brings_ q place' there holds => (inv.apart p q _ _ x here there brings_ holds).symm
  | refuse p stand spot outcome here unrun => exact quiet alone rfl (by simp) (by simp)
  | inner p stand stand' spot c shared next here moved =>
    have steps : Source.Mcp.Credentials.inner isHttps s.live p s.shared stand spot c = some (shared, stand', next) := moved
    exact inner_inv isHttps inv here steps
  | leave p stand outcome here => exact quiet alone rfl (by simp) (by simp)

/-- The states of the processes that share a store. -/
def Reached (s : Procs) : Prop :=
  ∃ first, start first.shared ∧ (∀ p, first.places p = none) ∧
    ReflTransGen (processes isHttps).Turn first s

theorem inv_of_reached {s : Procs} (reached : Reached isHttps s) : Inv s := by
  obtain ⟨first, ⟨empty, stored⟩, nobody, run⟩ := reached
  have never : ∀ provider token, ¬ Gone first.shared.log provider token := by
    rintro provider token ⟨job, before, after, mem, -⟩
    rw [empty] at mem
    cases mem
  induction run with
  | refl =>
    have nowhere : ∀ {p place}, first.places p ≠ some place := by
      intro p place here
      rw [nobody] at here
      cases here
    refine ⟨fun p q _ _ _ _ here => absurd here nowhere, ⟨fun provider token holds => ?_, ?_, ?_, ?_⟩,
      fun p _ _ here => absurd here nowhere, fun p _ _ here => absurd here nowhere,
      fun p _ _ here => absurd here nowhere, fun p q _ _ _ here => absurd here nowhere⟩
    · exact ⟨stored provider token holds, never provider token⟩
    · exact fun provider token gone => absurd gone (never provider token)
    · rw [empty]
      trivial
    · rw [empty]
      trivial
  | tail _ last ih => exact turn_inv isHttps last ih

theorem Clean.at (clean : Clean (later ++ .sent provider token :: earlier)) :
    ¬ Gone earlier provider token := by
  induction later with
  | nil => exact clean.1
  | cons e rest ih =>
    cases e with
    | read => exact ih clean
    | sent => exact ih clean.2
    | exchanged => exact ih clean
    | wrote => exact ih clean

theorem Writes.at (writes : Writes (later ++ .wrote job before after :: earlier)) :
    Rightful earlier.head? job before after := by
  induction later with
  | nil => exact writes.1
  | cons e rest ih =>
    cases e with
    | read => exact ih writes
    | sent => exact ih writes
    | exchanged => exact ih writes
    | wrote => exact ih writes.2

/-- A token that a write has taken out of the store is not sent after it, and every write is a
rightful one. -/
theorem tokens_not_replayed {s : Procs} (reached : Reached isHttps s) :
    (∀ later earlier provider token, s.shared.log = later ++ .sent provider token :: earlier →
      ¬ Gone earlier provider token) ∧
    ∀ later earlier job before after, s.shared.log = later ++ .wrote job before after :: earlier →
      Rightful earlier.head? job before after := by
  obtain ⟨-, kept, -⟩ := inv_of_reached isHttps reached
  constructor
  · intro later earlier provider token is
    have clean := kept.clean
    rw [is] at clean
    exact clean.at
  · intro later earlier job before after is
    have writes := kept.writes
    rw [is] at writes
    exact writes.at

/-- Two processes, where each stands. -/
def two (shared : Shared) (a b : Option (Place Stand Spot Result)) : Procs :=
  ⟨shared, fun q => if q = 0 then a else if q = 1 then b else none⟩

variable {a b : Option (Place Stand Spot Result)}

theorem two_first (shared shared' : Shared) (place : Place Stand Spot Result) :
    ({ two shared a b with shared := shared' } : Procs).put 0 place = two shared' (some place) b := by
  simp only [Taking.put, two]
  congr 1
  funext q
  rw [Function.update_apply]
  split <;> rfl

theorem two_second (shared shared' : Shared) (place : Place Stand Spot Result) :
    ({ two shared a b with shared := shared' } : Procs).put 1 place = two shared' a (some place) := by
  simp only [Taking.put, two]
  congr 1
  funext q
  rw [Function.update_apply]
  split
  · next same =>
    subst same
    rfl
  · rfl

theorem Reached.step {s u : Procs} (reached : Reached isHttps s)
    (turn : (processes isHttps).Turn s t) (same : t = u) : Reached isHttps u := by
  obtain ⟨first, starts, nobody, run⟩ := reached
  subst same
  exact ⟨first, starts, nobody, run.tail turn⟩

variable {isHttps}

theorem first_outer {stand stand' : Stand} {c : Choice}
    (reached : Reached isHttps (two shared (some (.outer stand)) b))
    (moved : outer (fun _ => true) 0 shared stand c = some (shared', stand', call)) :
    Reached isHttps (two shared' (some (.called stand' call)) b) :=
  reached.step isHttps (.outer 0 stand stand' c shared' call rfl moved) (two_first _ _ _)

theorem second_outer {stand stand' : Stand} {c : Choice}
    (reached : Reached isHttps (two shared a (some (.outer stand))))
    (moved : outer (fun _ => true) 1 shared stand c = some (shared', stand', call)) :
    Reached isHttps (two shared' a (some (.called stand' call))) :=
  reached.step isHttps (.outer 1 stand stand' c shared' call rfl moved) (two_second _ _ _)

theorem first_inner {stand stand' : Stand} {c : Choice} {next : Spot ⊕ Result}
    (reached : Reached isHttps (two shared (some (.inside stand spot)) b))
   
    (moved : Source.Mcp.Credentials.inner isHttps (fun _ => true) 0 shared stand spot c = some (shared', stand', next)) :
    Reached isHttps (two shared' (some (.stepped stand' next)) b) :=
  reached.step isHttps (.inner 0 stand stand' spot c shared' next rfl moved) (two_first _ _ _)

theorem second_inner {stand stand' : Stand} {c : Choice} {next : Spot ⊕ Result}
    (reached : Reached isHttps (two shared a (some (.inside stand spot))))
   
    (moved : Source.Mcp.Credentials.inner isHttps (fun _ => true) 1 shared stand spot c = some (shared', stand', next)) :
    Reached isHttps (two shared' a (some (.stepped stand' next))) :=
  reached.step isHttps (.inner 1 stand stand' spot c shared' next rfl moved) (two_second _ _ _)

def isOut : Option (Place Stand Spot Result) → Prop
  | some (.inside _ _) => False
  | _ => True

theorem two_free (one : isOut a) (other : isOut b) (q : Nat) (o : Stand) (l : Spot) :
    (two shared a b).places q ≠ some (.inside o l) := by
  intro here
  simp only [two] at here
  split at here
  · rw [here] at one
    exact one
  · split at here
    · rw [here] at other
      exact other
    · cases here

theorem first_enter {stand : Stand}
    (reached : Reached isHttps (two shared (some (.entering stand spot)) b)) (other : isOut b) :
    Reached isHttps (two shared (some (.inside stand spot)) b) :=
  reached.step isHttps (.enter 0 stand spot rfl (two_free trivial other)) (two_first shared shared _)

theorem second_enter {stand : Stand}
    (reached : Reached isHttps (two shared a (some (.entering stand spot)))) (other : isOut a) :
    Reached isHttps (two shared a (some (.inside stand spot))) :=
  reached.step isHttps (.enter 1 stand spot rfl (two_free other trivial)) (two_second shared shared _)

theorem first_leave {stand : Stand} {outcome : Outcome Result}
    (reached : Reached isHttps (two shared (some (.leaving stand outcome)) b)) :
    Reached isHttps (two shared (some (.outer .idle)) b) :=
  reached.step isHttps (.leave 0 stand outcome rfl) (two_first shared shared _)

def acme : Provider := js "acme"

def client : OAuthClient := ⟨js "id", none, js "u", js "i", js "a", js "t", 0⟩

/-- An access token that has run out. -/
def expired (refreshToken : String) : OAuthTokens := ⟨js "a", some (js refreshToken), some 0, none⟩

def begun : Shared :=
  ⟨fun provider => if provider = acme then some (.oauth client (some (expired "r")) none 0) else none,
    [(acme, js "r")], []⟩

theorem begun_reached : Reached isHttps (two begun (some (.outer .idle)) (some (.outer .idle))) := by
  have nobody : Reached isHttps (two begun none none) := by
    refine ⟨_, ⟨rfl, fun provider token holds => ?_⟩, fun p => ?_, .refl⟩
    · by_cases named : provider = acme
      · subst named
        have own : refreshOf begun.file acme = some (js "r") := rfl
        cases own.symm.trans holds
        exact .head _
      · have none_ : refreshOf begun.file provider = none := by
          simp [refreshOf, tokensOf, begun, named]
        cases none_.symm.trans holds
    · simp [two]
  have one := nobody.step isHttps (.spawn 0 rfl) (two_first begun begun _)
  exact one.step isHttps (.spawn 1 rfl) (two_second begun begun _)

/-- The tokens that come without a new refresh token. -/
def again : Response := .granted (js "b") none (some 0) none

/-- One process refreshes twice, and sends the token again that was exchanged and written. -/
theorem sent_again : ∃ s tokens job before after, Reached isHttps s ∧ s.shared.log =
    [.sent acme (js "r"), .read job, .wrote job before after, .exchanged acme (js "r") tokens,
      .sent acme (js "r"), .read job] := by
  have calls := first_outer (@begun_reached isHttps) (c := .resolve acme 100) rfl
  have reads := first_enter calls trivial
  have sends := first_inner reads (c := .go 100) rfl
  have awaits := first_inner sends (c := .go 100) rfl
  have writes := first_inner awaits (c := .answered again 100) rfl
  have wrote := first_leave (first_inner writes (c := .written false) rfl)
  have calls := first_outer wrote (c := .resolve acme 200) rfl
  have reads := first_enter calls trivial
  have sends := first_inner reads (c := .go 200) rfl
  have awaits := first_inner sends (c := .go 200) rfl
  exact ⟨_, _, _, _, _, awaits, rfl⟩

def renewed (accessToken refreshToken : String) : Response :=
  .granted (js accessToken) (some (js refreshToken)) none none

/-- A login gets its tokens, the other process refreshes, and the login writes the older ones. -/
theorem overwritten_by_login : ∃ s before after earlier, Reached isHttps s ∧
    s.shared.log = .wrote (.complete acme client ⟨js "b", some (js "older"), none, none⟩) before after :: earlier ∧
    refreshOf before acme = some (js "newer") ∧ refreshOf after acme = some (js "older") ∧
    s.shared.issued = [(acme, js "newer"), (acme, js "older"), (acme, js "r")] := by
  have login := first_outer (@begun_reached isHttps) (c := .login acme client) rfl
  have tokens := first_outer login (c := .answered (renewed "b" "older") 100) rfl
  have calls := second_outer tokens (c := .resolve acme 100) rfl
  have reads := second_enter calls trivial
  have sends := second_inner reads (c := .go 100) rfl
  have awaits := second_inner sends (c := .go 100) rfl
  have writes := second_inner awaits (c := .answered (renewed "c" "newer") 100) rfl
  have wrote := second_inner writes (c := .written false) rfl
  have enters := first_enter wrote trivial
  have completes := first_inner enters (c := .go 200) rfl
  have ends := first_inner completes (c := .written false) rfl
  exact ⟨_, _, _, _, ends, rfl, rfl, rfl, rfl⟩

def anyUrl (_ : Text) : Bool := true

/-- A token that was exchanged is sent again, and a login puts older tokens over newer ones. -/
theorem replayed_and_overwritten :
    (∃ s tokens job before after, Reached anyUrl s ∧ s.shared.log =
      [.sent acme (js "r"), .read job, .wrote job before after, .exchanged acme (js "r") tokens,
        .sent acme (js "r"), .read job]) ∧
    ∃ s job before after earlier, Reached anyUrl s ∧ s.shared.log = .wrote job before after :: earlier ∧
      refreshOf before acme = some (js "newer") ∧ refreshOf after acme = some (js "older") ∧
      s.shared.issued = [(acme, js "newer"), (acme, js "older"), (acme, js "r")] := by
  obtain ⟨s, before, after, earlier, reached, log, was, is, issued⟩ := @overwritten_by_login anyUrl
  exact ⟨sent_again, s, _, before, after, earlier, reached, log, was, is, issued⟩

theorem tokens_not_replayed_twice : ∃ s : Procs, s.shared.log.length = 6 ∧
    ∀ later earlier provider token, s.shared.log = later ++ .sent provider token :: earlier →
      ¬ Gone earlier provider token := by
  obtain ⟨s, _, _, _, _, reached, log⟩ := @sent_again anyUrl
  exact ⟨s, congrArg List.length log, (tokens_not_replayed anyUrl reached).1⟩

end Ultrathink.Guarantees.RefreshTokens
