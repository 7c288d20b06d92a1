import EapAccel.Downstream.Spec

/-!
# The session table

Every entry of the table names an object that exists and knows its own key (`Tabled`). So
a session that is dropped under its own key is found no more, and one that gets a State
stays in the table, under its new key. The table is a dictionary in which a session with a
State stands under that State (`Named`).
-/

set_option autoImplicit false

namespace EapAccel

open Foundations EapTls

/-- The session object is in the table. -/
def Server.Live (σ : Server) (ref : ℕ) : Prop := ∃ key, (key, ref) ∈ σ.table

/-- The session object is found under the key it knows. -/
def Server.Found (σ : Server) (ref : ℕ) : Prop := σ.table.lookup (σ.objects ref).key = some ref

/-- Every entry of the table names an existing object, by the key that it knows. -/
def Server.Tabled (σ : Server) : Prop :=
  ∀ entry ∈ σ.table, entry.2 < σ.created ∧ (σ.objects entry.2).key = entry.1

namespace Downstream

variable {env : Env} {fuel : ℕ}

theorem tabled_initial (env : Env) : (initial env).Tabled := by
  intro entry member
  cases member

/-! ## Finding or creating -/

/-- A lookup leaves the server as it is. -/
theorem opened_of_lookup {σ : Server} {key : String} {ref : ℕ}
    (found : σ.table.lookup key = some ref) : σ.opened env key = (ref, σ) := by
  rw [Server.opened, found]

theorem opened_of_none {σ : Server} {key : String} (absent : σ.table.lookup key = none) :
    σ.opened env key = (σ.created, σ.grow env key) := by
  rw [Server.opened, absent]

/-- The session of a request is live before, or it is new. -/
theorem opened_cases (σ : Server) (env : Env) (key : String) :
    (σ.table.lookup key = some (σ.opened env key).1 ∧ (σ.opened env key).2 = σ) ∨
      ((σ.opened env key).1 = σ.created ∧ (σ.opened env key).2 = σ.grow env key) := by
  cases lookup : σ.table.lookup key with
  | some ref =>
      rw [opened_of_lookup lookup]
      exact .inl ⟨rfl, rfl⟩
  | none =>
      rw [opened_of_none lookup]
      exact .inr ⟨rfl, rfl⟩

/-- A session object is as it was, or it is the new one. -/
theorem opened_objects (σ : Server) (env : Env) (key : String) (ref : ℕ) :
    (σ.opened env key).2.objects ref = σ.objects ref ∨
      (σ.opened env key).1 = ref ∧ ref = σ.created ∧
        (σ.opened env key).2.objects ref = Session.create ref key env.cfg σ.clock := by
  rcases opened_cases σ env key with ⟨_, same⟩ | ⟨new, grown⟩
  · exact .inl (congrArg (fun σ => σ.objects ref) same)
  · rw [new, grown]
    by_cases here : ref = σ.created
    · subst here
      exact .inr ⟨rfl, rfl, Function.update_self _ _ _⟩
    · exact .inl (Function.update_of_ne here _ _)

theorem grow_found (σ : Server) (key : String) : (σ.grow env key).Found σ.created := by
  have own : ((σ.grow env key).objects σ.created).key = key := by
    simp [Server.grow, Session.create]
  rw [Server.Found, own]
  exact lookup_dictSet_self key σ.created σ.table

theorem grow_tabled {σ : Server} (tabled : σ.Tabled) (key : String) :
    (σ.grow env key).Tabled := by
  intro entry member
  rcases of_mem_dictSet member with rfl | ⟨old, _⟩
  · exact ⟨Nat.lt_succ_self _, by simp [Server.grow, Session.create]⟩
  · obtain ⟨exists_before, own⟩ := tabled entry old
    refine ⟨Nat.lt_succ_of_lt exists_before, ?_⟩
    simp only [Server.grow, Function.update_of_ne exists_before.ne]
    exact own

theorem opened_tabled {σ : Server} (tabled : σ.Tabled) (key : String) :
    (σ.opened env key).2.Tabled := by
  rcases opened_cases σ env key with ⟨_, same⟩ | ⟨_, grown⟩
  · rw [same]
    exact tabled
  · rw [grown]
    exact grow_tabled tabled key

theorem opened_found {σ : Server} (tabled : σ.Tabled) (key : String) :
    (σ.opened env key).2.Found (σ.opened env key).1 := by
  rcases opened_cases σ env key with ⟨found, same⟩ | ⟨new, grown⟩
  · rw [same, Server.Found, (tabled _ (mem_of_lookup found)).2]
    exact found
  · rw [new, grown]
    exact grow_found σ key

theorem opened_live {σ : Server} {key : String} {ref : ℕ}
    (live : (σ.opened env key).2.Live ref) :
    σ.Live ref ∨ (ref = σ.created ∧ (σ.opened env key).1 = σ.created) := by
  rcases opened_cases σ env key with ⟨_, same⟩ | ⟨new, grown⟩
  · rw [same] at live
    exact .inl live
  · rw [grown] at live
    obtain ⟨other, member⟩ := live
    rcases of_mem_dictSet member with same | ⟨old, _⟩
    · cases same
      exact .inr ⟨rfl, new⟩
    · exact .inl ⟨other, old⟩

/-! ## Handling -/

theorem put_tabled {σ : Server} (tabled : σ.Tabled) {ref : ℕ} {leg : Leg}
    (key : leg.session.key = (σ.objects ref).key) : (σ.put ref leg).Tabled := by
  intro entry member
  obtain ⟨exists_before, own⟩ := tabled entry member
  refine ⟨exists_before, ?_⟩
  by_cases here : entry.2 = ref
  · rw [here, Server.put_objects_self, key, ← here]
    exact own
  · rw [σ.put_objects_of_ne leg here]
    exact own

theorem put_found {σ : Server} {ref : ℕ} (found : σ.Found ref) {leg : Leg}
    (key : leg.session.key = (σ.objects ref).key) : (σ.put ref leg).Found ref := by
  rw [Server.Found, Server.put_objects_self, key]
  exact found

/-! ## Getting a State -/

/-- Minting a State for a session that has none moves its entry to its new key. -/
theorem mint_eq {σ : Server} {ref : ℕ} (found : σ.Found ref) :
    σ.mint env ref =
      if (σ.objects ref).key = "st:" ++ hex (env.token σ.minted) then
        { σ with
          minted := σ.minted + 1
          objects := Function.update σ.objects ref
            { σ.objects ref with downstreamState := some (env.token σ.minted) } }
      else
        { σ with
          minted := σ.minted + 1
          objects := Function.update σ.objects ref
            { σ.objects ref with
              downstreamState := some (env.token σ.minted)
              key := "st:" ++ hex (env.token σ.minted) }
          table := dictSet ("st:" ++ hex (env.token σ.minted)) ref
            (dictPop (σ.objects ref).key σ.table) } := by
  have lookup : σ.table.lookup (σ.objects ref).key = some ref := found
  rw [Server.mint, rekey, Act.modify_apply]
  simp only [lookup]
  by_cases same : (σ.objects ref).key = "st:" ++ hex (env.token σ.minted)
  · rw [if_pos same, if_pos same]
  · rw [if_neg same, if_neg same]
    simp only [Function.update_self, Function.update_idem]

theorem mint_tabled {σ : Server} {ref : ℕ} (tabled : σ.Tabled) (found : σ.Found ref) :
    (σ.mint env ref).Tabled := by
  have exists_ref := (tabled _ (mem_of_lookup found)).1
  rw [mint_eq found]
  split
  · intro entry member
    obtain ⟨exists_before, own⟩ := tabled entry member
    refine ⟨exists_before, ?_⟩
    by_cases here : entry.2 = ref
    · simp only [here, Function.update_self]
      exact here ▸ own
    · simp only [Function.update_of_ne here]
      exact own
  · intro entry member
    rcases of_mem_dictSet member with rfl | ⟨old, _⟩
    · exact ⟨exists_ref, by simp only [Function.update_self]⟩
    · obtain ⟨old, other_key⟩ := mem_dictPop.mp old
      obtain ⟨exists_before, own⟩ := tabled entry old
      refine ⟨exists_before, ?_⟩
      by_cases here : entry.2 = ref
      · exact absurd (here ▸ own).symm other_key
      · simp only [Function.update_of_ne here]
        exact own

theorem mint_live {σ : Server} {ref other : ℕ} (found : σ.Found ref)
    (live : (σ.mint env ref).Live other) : σ.Live other := by
  rw [mint_eq found] at live
  split at live
  · exact live
  · obtain ⟨key, member⟩ := live
    rcases of_mem_dictSet member with same | ⟨old, _⟩
    · cases same
      exact ⟨_, mem_of_lookup found⟩
    · exact ⟨key, (mem_dictPop.mp old).1⟩

theorem addressed_cases (σ : Server) (env : Env) (ref : ℕ) (action : Action) :
    (σ.addressed env ref action).2 = σ ∨ (σ.addressed env ref action).2 = σ.mint env ref := by
  rw [Server.addressed]
  cases action.verdict with
  | some v => exact .inl rfl
  | none =>
      simp only [Server.stamped]
      cases (σ.objects ref).downstreamState with
      | some state => exact .inl rfl
      | none => exact .inr rfl

theorem addressed_tabled {σ : Server} {ref : ℕ} (tabled : σ.Tabled) (found : σ.Found ref)
    (action : Action) : (σ.addressed env ref action).2.Tabled := by
  rcases addressed_cases σ env ref action with same | minted
  · rw [same]
    exact tabled
  · rw [minted]
    exact mint_tabled tabled found

theorem addressed_live {σ : Server} {ref other : ℕ} (found : σ.Found ref) {action : Action}
    (live : (σ.addressed env ref action).2.Live other) : σ.Live other := by
  rcases addressed_cases σ env ref action with same | minted
  · rwa [same] at live
  · rw [minted] at live
    exact mint_live found live

/-! ## Dropping -/

theorem dropped_tabled {σ : Server} (tabled : σ.Tabled) (ref : ℕ) : (dropped ref σ).Tabled :=
  fun entry member => tabled entry (mem_dictPop.mp member).1

/-- A session is dropped under every key. -/
theorem dropped_live {σ : Server} (tabled : σ.Tabled) {ref other : ℕ}
    (live : (dropped ref σ).Live other) : σ.Live other ∧ other ≠ ref := by
  obtain ⟨key, member⟩ := live
  obtain ⟨old, other_key⟩ := mem_dictPop.mp member
  refine ⟨⟨key, old⟩, ?_⟩
  rintro rfl
  exact other_key (tabled _ old).2.symm

theorem reportAndDrop_tabled {σ : Server} (tabled : σ.Tabled) (ref : ℕ) :
    (reportAndDrop env ref σ).2.Tabled := by
  rw [reportAndDrop_eq]
  by_cases finished : (σ.objects ref).result.isSome
  · rw [if_pos finished]
    cases env.report σ.reports (ref, (σ.objects ref).summary) with
    | ok done => exact @dropped_tabled (reported ref σ) tabled ref
    | error e => exact tabled
  · rw [if_neg finished]
    exact tabled

theorem reportAndDrop_live {σ : Server} (tabled : σ.Tabled) {ref other : ℕ}
    (live : (reportAndDrop env ref σ).2.Live other) : σ.Live other := by
  rw [reportAndDrop_eq] at live
  by_cases finished : (σ.objects ref).result.isSome
  · rw [if_pos finished] at live
    cases report : env.report σ.reports (ref, (σ.objects ref).summary) with
    | ok done =>
        rw [report] at live
        exact (@dropped_live (reported ref σ) tabled ref other live).1
    | error e =>
        rw [report] at live
        exact live
  · rw [if_neg finished] at live
    exact live

/-- A finished session that could be reported is dropped. -/
theorem reportAndDrop_drops {σ σ' : Server} (tabled : σ.Tabled) {ref : ℕ}
    (finished : (σ.objects ref).result.isSome)
    (returned : reportAndDrop env ref σ = (.ok (), σ')) : ¬ σ'.Live ref := by
  rw [reportAndDrop_eq, if_pos finished] at returned
  cases report : env.report σ.reports (ref, (σ.objects ref).summary) with
  | ok done =>
      rw [report] at returned
      cases returned
      exact fun live => (@dropped_live (reported ref σ) tabled ref ref live).2 rfl
  | error e =>
      rw [report] at returned
      cases returned

/-! ## Concluding -/

theorem conclude_tabled {σ : Server} {ref : ℕ} (tabled : σ.Tabled) (found : σ.Found ref)
    (request : ApRequest) (outcome : Outcome) :
    (conclude env ref request outcome σ).2.Tabled := by
  have addressed : (answer env ref request outcome σ).2.Tabled :=
    addressed_tabled tabled found outcome.action
  rw [conclude_eq]
  simp only
  cases env.send (answer env ref request outcome σ).2.replies
      (answer env ref request outcome σ).1 with
  | ok done => exact @reportAndDrop_tabled env (replied _ _) addressed ref
  | error e => exact addressed

theorem conclude_live {σ : Server} {ref other : ℕ} (tabled : σ.Tabled) (found : σ.Found ref)
    {request : ApRequest} {outcome : Outcome}
    (live : (conclude env ref request outcome σ).2.Live other) : σ.Live other := by
  have addressed : (answer env ref request outcome σ).2.Tabled :=
    addressed_tabled tabled found outcome.action
  refine @addressed_live env σ ref other found outcome.action ?_
  rw [conclude_eq] at live
  simp only at live
  cases sent : env.send (answer env ref request outcome σ).2.replies
      (answer env ref request outcome σ).1 with
  | ok done =>
      rw [sent] at live
      exact @reportAndDrop_live env (replied _ _) addressed ref other live
  | error e =>
      rw [sent] at live
      exact live

/-- A finished session is forgotten once its last reply and its report got out. -/
theorem conclude_drops {σ σ' : Server} {ref : ℕ} (tabled : σ.Tabled) (found : σ.Found ref)
    {request : ApRequest} {outcome : Outcome} (finished : (σ.objects ref).result.isSome)
    (returned : conclude env ref request outcome σ = (.ok (), σ')) : ¬ σ'.Live ref := by
  have addressed : (answer env ref request outcome σ).2.Tabled :=
    addressed_tabled tabled found outcome.action
  have work := @addressed_work env ref outcome.action σ
  have unnamed : ((σ.addressed env ref outcome.action).2.objects ref).unnamed =
      (σ.objects ref).unnamed := congrFun (congrArg (·.objects) work) ref
  have result : ((σ.addressed env ref outcome.action).2.objects ref).result =
      (σ.objects ref).result := by
    simpa [Session.unnamed] using congrArg Session.result unnamed
  rw [conclude_eq] at returned
  simp only at returned
  cases sent : env.send (answer env ref request outcome σ).2.replies
      (answer env ref request outcome σ).1 with
  | ok done =>
      rw [sent] at returned
      refine @reportAndDrop_drops env (replied _ _) σ' addressed ref ?_ returned
      exact result ▸ finished
  | error e =>
      rw [sent] at returned
      cases returned

/-! ## One key -/

/-- The key is free, or it finds the session object, which knows it. -/
def Points (σ : Server) (key : String) (ref : ℕ) : Prop :=
  σ.table.lookup key = none ∨ (σ.table.lookup key = some ref ∧ (σ.objects ref).key = key)

theorem opened_lookup (σ : Server) (key : String) :
    (σ.opened env key).2.table.lookup key = some (σ.opened env key).1 := by
  rcases opened_cases σ env key with ⟨found, same⟩ | ⟨new, grown⟩
  · rw [same]
    exact found
  · rw [new, grown]
    exact lookup_dictSet_self key σ.created σ.table

theorem opened_key {σ : Server} (tabled : σ.Tabled) (key : String) :
    ((σ.opened env key).2.objects (σ.opened env key).1).key = key :=
  (opened_tabled tabled key _ (mem_of_lookup (opened_lookup σ key))).2

theorem addressed_points {σ : Server} {ref : ℕ} (found : σ.Found ref) (action : Action) :
    Points (σ.addressed env ref action).2 (σ.objects ref).key ref := by
  rcases addressed_cases σ env ref action with same | minted
  · rw [same]
    exact .inr ⟨found, rfl⟩
  · rw [minted, mint_eq found]
    split
    · exact .inr ⟨found, by simp only [Function.update_self]⟩
    · next different =>
        exact .inl ((lookup_dictSet_of_ne different _).trans (lookup_dictPop_self _ _))

theorem reportAndDrop_points {σ : Server} {key : String} {ref : ℕ} (points : Points σ key ref) :
    Points (reportAndDrop env ref σ).2 key ref := by
  rw [reportAndDrop_eq]
  by_cases finished : (σ.objects ref).result.isSome
  · rw [if_pos finished]
    cases env.report σ.reports (ref, (σ.objects ref).summary) with
    | error e => exact points
    | ok done =>
        rcases points with absent | ⟨_, own⟩
        · exact .inl (lookup_dictPop_of_none absent)
        · exact .inl (own ▸ lookup_dictPop_self (σ.objects ref).key σ.table)
  · rw [if_neg finished]
    exact points

/-- After a request the key of its session is free, or finds that session. -/
theorem conclude_points {σ : Server} {ref : ℕ} (found : σ.Found ref) (request : ApRequest)
    (outcome : Outcome) :
    Points (conclude env ref request outcome σ).2 (σ.objects ref).key ref := by
  have addressed := @addressed_points env σ ref found outcome.action
  rw [conclude_eq]
  simp only
  cases env.send (answer env ref request outcome σ).2.replies
      (answer env ref request outcome σ).1 with
  | ok done =>
      exact @reportAndDrop_points env (replied _ _) (σ.objects ref).key ref addressed
  | error e => exact addressed

/-- Concluding for a session that has a State and no result hands over the reply, and that
is all. -/
theorem conclude_open {σ : Server} {ref : ℕ} (stated : (σ.objects ref).downstreamState ≠ none)
    (unfinished : (σ.objects ref).result = none) (request : ApRequest) (outcome : Outcome) :
    (conclude env ref request outcome σ).2 = replied (answer env ref request outcome σ).1 σ := by
  obtain ⟨state, named⟩ := Option.ne_none_iff_exists'.mp stated
  have same : (answer env ref request outcome σ).2 = σ := by
    rw [answer, Server.addressed]
    cases outcome.action.verdict with
    | some v => rfl
    | none => simp only [Server.stamped, named]
  rw [conclude_eq]
  simp only [same]
  cases env.send σ.replies (answer env ref request outcome σ).1 with
  | error e => rfl
  | ok done =>
      have going : ¬ ((replied (answer env ref request outcome σ).1 σ).objects ref).result.isSome := by
        show ¬ (σ.objects ref).result.isSome
        rw [unfinished]
        simp
      rw [reportAndDrop_eq, if_neg going]

/-! ## Sessions under their State -/

end Downstream

/-- The table is a dictionary, and a session with a State stands under that State. -/
structure Server.Named (σ : Server) : Prop where
  tabled : σ.Tabled
  distinct : (σ.table.map Prod.fst).Nodup
  named : ∀ entry ∈ σ.table, ∀ state, (σ.objects entry.2).downstreamState = some state →
    entry.1 = "st:" ++ Downstream.hex state

namespace Downstream

variable {env : Env} {fuel : ℕ}

theorem named_initial (env : Env) : (initial env).Named :=
  ⟨tabled_initial env, List.nodup_nil, by simp [initial]⟩

theorem Named.opened {σ : Server} (named : σ.Named) (key : String) :
    (σ.opened env key).2.Named := by
  rcases opened_cases σ env key with ⟨_, same⟩ | ⟨_, grown⟩
  · rw [same]
    exact named
  · rw [grown]
    refine ⟨grow_tabled named.tabled key, nodup_dictSet named.distinct, ?_⟩
    intro entry member state stated
    rcases of_mem_dictSet member with rfl | ⟨old, _⟩
    · simp [Server.grow, Session.create] at stated
    · simp only [Server.grow, Function.update_of_ne (named.tabled entry old).1.ne] at stated
      exact named.named entry old state stated

theorem Named.put {σ : Server} (named : σ.Named) {ref : ℕ} {leg : Leg}
    (key : leg.session.key = (σ.objects ref).key)
    (stated : leg.session.downstreamState = (σ.objects ref).downstreamState) :
    (σ.put ref leg).Named := by
  refine ⟨put_tabled named.tabled key, named.distinct, ?_⟩
  intro entry member state
  by_cases here : entry.2 = ref
  · rw [here, Server.put_objects_self, stated, ← here]
    exact named.named entry member state
  · rw [σ.put_objects_of_ne leg here]
    exact named.named entry member state

theorem Named.mint {σ : Server} (named : σ.Named) {ref : ℕ} (found : σ.Found ref) :
    (σ.mint env ref).Named := by
  have tabled := @mint_tabled env σ ref named.tabled found
  rw [mint_eq found] at tabled ⊢
  split at tabled
  · next own =>
      rw [if_pos own]
      refine ⟨tabled, named.distinct, ?_⟩
      intro entry member state
      by_cases here : entry.2 = ref
      · simp only [here, Function.update_self]
        rintro ⟨⟩
        rw [← (named.tabled entry member).2, here, own]
      · simp only [Function.update_of_ne here]
        exact named.named entry member state
  · next other =>
      rw [if_neg other]
      refine ⟨tabled, ?_, ?_⟩
      · exact nodup_dictSet (named.distinct.sublist ((dictPop_sublist _ _).map _))
      · intro entry member state
        rcases of_mem_dictSet member with rfl | ⟨old, _⟩
        · simp only [Function.update_self]
          rintro ⟨⟩
          rfl
        · obtain ⟨there, different⟩ := mem_dictPop.mp old
          have elsewhere : entry.2 ≠ ref := by
            rintro rfl
            exact different (named.tabled entry there).2.symm
          simp only [Function.update_of_ne elsewhere]
          exact named.named entry there state

theorem Named.addressed {σ : Server} (named : σ.Named) {ref : ℕ} (found : σ.Found ref)
    (action : Action) : (σ.addressed env ref action).2.Named := by
  rcases addressed_cases σ env ref action with same | minted
  · rw [same]
    exact named
  · rw [minted]
    exact Named.mint named found

/-- A table with fewer entries is in order, too. -/
theorem Named.of_sublist {σ : Server} (named : σ.Named) {table : List (String × ℕ)}
    (fewer : table.Sublist σ.table) : Server.Named { σ with table := table } :=
  ⟨fun entry member => named.tabled entry (fewer.subset member),
    named.distinct.sublist (fewer.map _), fun entry member => named.named entry (fewer.subset member)⟩

theorem Named.reportAndDrop {σ : Server} (named : σ.Named) (ref : ℕ) :
    (reportAndDrop env ref σ).2.Named := by
  rw [reportAndDrop_eq]
  by_cases finished : (σ.objects ref).result.isSome
  · rw [if_pos finished]
    cases env.report σ.reports (ref, (σ.objects ref).summary) with
    | ok done =>
        exact @Named.of_sublist (reported ref σ) ⟨named.tabled, named.distinct, named.named⟩ _
          (dictPop_sublist (σ.objects ref).key σ.table)
    | error e => exact ⟨named.tabled, named.distinct, named.named⟩
  · rw [if_neg finished]
    exact named

theorem Named.conclude {σ : Server} (named : σ.Named) {ref : ℕ} (found : σ.Found ref)
    (request : ApRequest) (outcome : Outcome) :
    (conclude env ref request outcome σ).2.Named := by
  have addressed : (answer env ref request outcome σ).2.Named :=
    Named.addressed named found outcome.action
  rw [conclude_eq]
  simp only
  cases env.send (answer env ref request outcome σ).2.replies
      (answer env ref request outcome σ).1 with
  | ok done =>
      exact @Named.reportAndDrop env (replied _ _)
        ⟨addressed.tabled, addressed.distinct, addressed.named⟩ ref
  | error e => exact ⟨addressed.tabled, addressed.distinct, addressed.named⟩

/-- A session that gets a State stays in the table. -/
theorem addressed_keeps_live {σ : Server} {ref : ℕ} (found : σ.Found ref) (action : Action) :
    (σ.addressed env ref action).2.Live ref := by
  rcases addressed_cases σ env ref action with same | minted
  · rw [same]
    exact ⟨_, mem_of_lookup found⟩
  · rw [minted, mint_eq found]
    split
    · exact ⟨_, mem_of_lookup found⟩
    · exact ⟨_, mem_of_lookup (lookup_dictSet_self _ ref _)⟩

end Downstream
end EapAccel
