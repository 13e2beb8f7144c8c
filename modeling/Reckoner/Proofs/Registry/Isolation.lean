import Reckoner.Proofs.Registry.Desk

/-!
# Sessions on their own

What the holder of one session is told is what it would be told if no other session had ever been
asked for: of the other requests only the passing of time and the clearing of the registry can be
noticed.

A calculator that somebody kept from before its session expired is not spoken of here. When it loses
its variables depends on the next request that purges the registry, whosever it is.
-/

set_option autoImplicit false

namespace Reckoner.Desk

/-- The request that is left of an exchange when all sessions but one are left out, and the
identifier of that one is another one. -/
def kept? (id alone : String) : Request × Outcome → Option Request
  | (.create settings, .created (.ok made)) => if made = id then some (.create settings) else none
  | (.create _, _) => none
  | (.get other, _) => if other = id then some (.get alone) else none
  | (.ask other inquiry, _) => if other = id then some (.ask alone inquiry) else none
  | (.delete other, _) => if other = id then some (.delete alone) else none
  | (.clear, _) => some .clear
  | (.advance span, _) => some (.advance span)

/-- The outcome of an exchange, if a session was fetched or asked in it. -/
def observed? (id : String) : Request × Outcome → Option Outcome
  | (.get other, outcome) => if other = id then some outcome else none
  | (.ask other _, outcome) => if other = id then some outcome else none
  | _ => none

/-! ## Two desks -/

/-- A desk and another one at which there are requests for one session alone. The session is there
on both sides or on neither; until it is created, the other desk has no sessions. -/
structure Together (id : String) (number : Nat) (desk alone : Desk) : Prop where
  sound : desk.registry.Sound
  soundAlone : alone.registry.Sound
  now : alone.now = desk.now
  lifetime : alone.registry.lifetime = desk.registry.lifetime
  live : alone.registry.live? desk.now (sessionId (number + 1)) = desk.registry.live? desk.now id
  created : id ∈ desk.registry.keys ∨
    alone.registry.size = 0 ∧ alone.registry.issued = number ∧
      alone.registry.capacity = desk.registry.capacity

theorem together_start (lifetime capacity now : Int) (random other : RandomSource) (id : String)
    (number : Nat) :
    Together id number (start lifetime capacity 0 now random)
      (start lifetime capacity number now other) where
  sound := Registry.sound_empty lifetime capacity 0
  soundAlone := Registry.sound_empty lifetime capacity number
  now := rfl
  lifetime := rfl
  live := rfl
  created := .inr ⟨rfl, rfl, rfl⟩

namespace Together

variable {id : String} {number : Nat} {desk alone : Desk}

/-- Operations that create no session keep two desks together if they do the same to the session. -/
theorem narrow (together : Together id number desk alone) {after afterAlone : Desk}
    (narrows : desk.registry.Narrows after.registry)
    (narrowsAlone : alone.registry.Narrows afterAlone.registry) (now : after.now = desk.now)
    (nowAlone : afterAlone.now = alone.now)
    (live : afterAlone.registry.live? desk.now (sessionId (number + 1)) =
      after.registry.live? desk.now id) :
    Together id number after afterAlone where
  sound := narrows.sound
  soundAlone := narrowsAlone.sound
  now := by rw [nowAlone, now, together.now]
  lifetime := by rw [narrowsAlone.lifetime, narrows.lifetime, together.lifetime]
  live := by rw [now, live]
  created := by
    rcases together.created with there | ⟨empty, issued, capacity⟩
    · exact .inl (narrows.keys ▸ there)
    · refine .inr ⟨?_, narrowsAlone.issued.trans issued, ?_⟩
      · have bound := narrowsAlone.size
        omega
      · rw [narrowsAlone.capacity, narrows.capacity, capacity]

/-- What one request does: either it is for another session, and nothing of it is observed, or it is
made at both desks, and what is observed is the same. -/
def Step (id : String) (number : Nat) (desk alone : Desk) (request : Request) : Prop :=
  match kept? id (sessionId (number + 1)) (request, (desk.perform request).1) with
  | none => observed? id (request, (desk.perform request).1) = none ∧
      Together id number (desk.perform request).2 alone
  | some kept => observed? id (request, (desk.perform request).1) =
        observed? (sessionId (number + 1)) (kept, (alone.perform kept).1) ∧
      Together id number (desk.perform request).2 (alone.perform kept).2

/-- A request that is not kept, and nothing of which is observed, moves on the one desk only. -/
theorem elsewhere (together : Together id number desk alone) {request : Request}
    (left : kept? id (sessionId (number + 1)) (request, (desk.perform request).1) = none)
    (unseen : observed? id (request, (desk.perform request).1) = none)
    (narrows : desk.registry.Narrows (desk.perform request).2.registry)
    (now : (desk.perform request).2.now = desk.now)
    (live : (desk.perform request).2.registry.live? desk.now id =
      desk.registry.live? desk.now id) : Step id number desk alone request := by
  unfold Step
  rw [left]
  exact ⟨unseen, together.narrow narrows together.soundAlone.narrows_self now rfl
    (together.live.trans live.symm)⟩

theorem create_other (together : Together id number desk alone) (settings : Settings)
    (other : (desk.registry.create desk.now settings).1 ≠ .ok id) :
    Together id number (desk.perform (.create settings)).2 alone := by
  obtain ⟨lifetime, capacity⟩ := desk.registry.create_frame desk.now settings
  have keys := desk.registry.keys_create desk.now settings
  have live : (desk.registry.create desk.now settings).2.live? desk.now id =
      desk.registry.live? desk.now id := by
    cases made : (desk.registry.create desk.now settings).1 with
    | error error => exact Registry.live?_create_of_error together.sound made id
    | ok given =>
      have different : id ≠ given := fun same => other (same ▸ made)
      rw [Registry.live?_create_of_ok together.sound made, if_neg different]
  refine ⟨together.sound.create desk.now settings, together.soundAlone, together.now,
    together.lifetime.trans lifetime.symm, together.live.trans live.symm, ?_⟩
  rcases together.created with there | ⟨empty, issued, sameCapacity⟩
  · -- identifiers stay in use, also those of sessions that a purge has dropped
    refine .inl (keys ▸ ?_)
    split
    · exact List.mem_append_left _ there
    · exact there
  · exact .inr ⟨empty, issued, sameCapacity.trans capacity.symm⟩

/-- Where the session is created, it is created at the other desk as well: there is room. -/
theorem create_alone (together : Together id number desk alone) {settings : Settings}
    (made : (desk.registry.create desk.now settings).1 = .ok id) :
    (alone.registry.create alone.now settings).1 = .ok (sessionId (number + 1)) := by
  rcases desk.registry.create_cases desk.now settings with ⟨-, refused⟩ | ⟨free, created⟩
  · rw [refused] at made
    cases made
  · rw [created] at made
    obtain ⟨empty, issued, capacity⟩ := together.created.resolve_left fun there =>
      Registry.next_ne_of_mem_keys together.sound there (Except.ok.inj made)
    have size := (together.soundAlone.narrows_release (alone.registry.isExpired alone.now)).size
    rcases alone.registry.create_cases alone.now settings with ⟨full, -⟩ | ⟨-, createdAlone⟩
    · -- one session was granted at the first desk, and the other one has none yet
      have purged : (alone.registry.purge alone.now).size ≤ alone.registry.size := size
      omega
    · rw [createdAlone, issued]

theorem create_same (together : Together id number desk alone) {settings : Settings}
    (made : (desk.registry.create desk.now settings).1 = .ok id) :
    Together id number (desk.perform (.create settings)).2
      (alone.perform (.create settings)).2 := by
  have live := Registry.live?_create_of_ok together.sound made id
  have liveAlone := Registry.live?_create_of_ok together.soundAlone (together.create_alone made)
    (sessionId (number + 1))
  obtain ⟨lifetime, -⟩ := desk.registry.create_frame desk.now settings
  obtain ⟨lifetimeAlone, -⟩ := alone.registry.create_frame alone.now settings
  have keys := desk.registry.keys_create desk.now settings
  rw [if_pos rfl] at live liveAlone
  rw [made] at keys
  refine ⟨together.sound.create desk.now settings, together.soundAlone.create alone.now settings,
    together.now, ?_, ?_, ?_⟩
  · exact lifetimeAlone.trans (together.lifetime.trans lifetime.symm)
  · refine Eq.trans ?_ live.symm
    rw [← together.lifetime, ← together.now, ← liveAlone]
    exact congrArg (fun now => (alone.perform (.create settings)).2.registry.live? now _)
      together.now.symm
  · exact .inl (keys.symm ▸ List.mem_append_right _ (List.mem_singleton.2 rfl))

theorem create (together : Together id number desk alone) (settings : Settings) :
    Step id number desk alone (.create settings) := by
  have outcome : (desk.perform (.create settings)).1 =
      .created (desk.registry.create desk.now settings).1 := rfl
  unfold Step
  rw [outcome]
  cases made : (desk.registry.create desk.now settings).1 with
  | error error => exact ⟨rfl, together.create_other settings (by simp [made])⟩
  | ok given =>
    by_cases same : given = id
    · rw [same] at made
      simp only [kept?, same, if_true]
      exact ⟨rfl, together.create_same made⟩
    · simp only [kept?, same, if_false]
      exact ⟨rfl, together.create_other settings (by simp [made, same])⟩

theorem get (together : Together id number desk alone) (other : String) :
    Step id number desk alone (.get other) := by
  have narrows := together.sound.narrows_get desk.now other
  have live := Registry.live?_get together.sound desk.now other id
  by_cases same : other = id
  · subst same
    have narrowsAlone := together.soundAlone.narrows_get alone.now (sessionId (number + 1))
    have liveAlone := Registry.live?_get together.soundAlone alone.now (sessionId (number + 1))
      (sessionId (number + 1))
    rw [if_pos rfl] at live liveAlone
    simp only [Step, kept?, observed?, if_true]
    refine ⟨?_, together.narrow narrows narrowsAlone rfl rfl ?_⟩
    · rw [perform_get together.sound, perform_get together.soundAlone, together.now, together.live]
    · refine Eq.trans ?_ live.symm
      rw [← together.live, ← together.lifetime, ← together.now]
      exact liveAlone
  · exact together.elsewhere (if_neg same) (if_neg same) narrows rfl
      (live.trans (if_neg (Ne.symm same)))

theorem ask (together : Together id number desk alone) (other : String) (inquiry : Inquiry)
    (drawsNothing : other = id → inquiry.DrawsNothing) :
    Step id number desk alone (.ask other inquiry) := by
  obtain ⟨narrows, now⟩ := narrows_ask together.sound other inquiry
  have live := live?_ask together.sound other id inquiry
  by_cases same : other = id
  · subst same
    obtain ⟨narrowsAlone, nowAlone⟩ :=
      narrows_ask together.soundAlone (sessionId (number + 1)) inquiry
    have liveAlone := live?_ask together.soundAlone (sessionId (number + 1))
      (sessionId (number + 1)) inquiry
    have sameAnswer (calculator : Calculator) :=
      Inquiry.answer_source calculator desk.random alone.random (drawsNothing rfl)
    rw [if_pos rfl] at live liveAlone
    simp only [Step, kept?, observed?, if_true]
    refine ⟨?_, together.narrow narrows narrowsAlone now nowAlone ?_⟩
    · rw [perform_ask together.sound, perform_ask together.soundAlone, together.now, together.live]
      cases desk.registry.live? desk.now other with
      | none => rfl
      | some session => simp only [(sameAnswer session.calculator).1]
    · refine Eq.trans ?_ live.symm
      simp only [(sameAnswer _).2]
      rw [← together.live, ← together.lifetime, ← together.now]
      exact liveAlone
  · exact together.elsewhere (if_neg same) (if_neg same) narrows now
      (live.trans (if_neg (Ne.symm same)))

theorem delete (together : Together id number desk alone) (other : String) :
    Step id number desk alone (.delete other) := by
  have narrows := together.sound.narrows_delete other
  have live := Registry.live?_delete together.sound desk.now other id
  by_cases same : other = id
  · subst same
    have narrowsAlone := together.soundAlone.narrows_delete (sessionId (number + 1))
    have liveAlone := Registry.live?_delete together.soundAlone desk.now (sessionId (number + 1))
      (sessionId (number + 1))
    simp only [Step, kept?, observed?, if_true]
    refine ⟨trivial, together.narrow narrows narrowsAlone rfl rfl ?_⟩
    rw [if_pos rfl] at live liveAlone
    exact liveAlone.trans live.symm
  · exact together.elsewhere (if_neg same) rfl narrows rfl (live.trans (if_neg (Ne.symm same)))

theorem clear (together : Together id number desk alone) : Step id number desk alone .clear := by
  have live := Registry.live?_clear together.sound desk.now id
  have liveAlone := Registry.live?_clear together.soundAlone desk.now (sessionId (number + 1))
  refine ⟨rfl, together.narrow (together.sound.narrows_release _)
    (together.soundAlone.narrows_release _) rfl rfl ?_⟩
  exact liveAlone.trans live.symm

theorem advance (together : Together id number desk alone) (span : Nat) :
    Step id number desk alone (.advance span) := by
  have live := @Registry.live?_later desk.registry desk.now span id
  have liveAlone :=
    @Registry.live?_later alone.registry desk.now span (sessionId (number + 1))
  refine ⟨rfl, ?_⟩
  exact { together with
    now := congrArg (· + (span : Int)) together.now
    live := by
      rw [together.live, together.lifetime] at liveAlone
      exact liveAlone.trans live.symm }

theorem step (together : Together id number desk alone) (request : Request)
    (drawsNothing : ∀ inquiry, request = .ask id inquiry → inquiry.DrawsNothing) :
    Step id number desk alone request := by
  cases request with
  | create settings => exact together.create settings
  | get other => exact together.get other
  | ask other inquiry =>
    exact together.ask other inquiry fun same => drawsNothing inquiry (same ▸ rfl)
  | delete other => exact together.delete other
  | clear => exact together.clear
  | advance span => exact together.advance span

theorem transcripts (together : Together id number desk alone) {requests : List Request}
    (drawsNothing : ∀ inquiry, .ask id inquiry ∈ requests → inquiry.DrawsNothing) :
    (desk.transcript requests).filterMap (observed? id) =
      (alone.transcript ((desk.transcript requests).filterMap
        (kept? id (sessionId (number + 1))))).filterMap (observed? (sessionId (number + 1))) := by
  induction requests generalizing desk alone with
  | nil => rfl
  | cons request requests inner =>
    have later : ∀ inquiry, .ask id inquiry ∈ requests → inquiry.DrawsNothing :=
      fun inquiry member => drawsNothing inquiry (List.mem_cons_of_mem request member)
    have stepped := together.step request
      fun inquiry same => drawsNothing inquiry (same ▸ List.mem_cons_self)
    unfold Step at stepped
    rw [transcript, List.filterMap_cons, List.filterMap_cons]
    split at stepped
    · rename_i nothing
      obtain ⟨unseen, next⟩ := stepped
      simp only [nothing, unseen]
      exact inner next later
    · rename_i kept isKept
      obtain ⟨same, next⟩ := stepped
      simp only [isKept, same]
      rw [transcript, List.filterMap_cons, inner next later]

end Together

/-- What is observed of a session is what is observed when no request for another session is made,
whatever identifier the session has then and whatever the source of random numbers is. All outcomes
of fetching and asking count, with reports, warnings and tables; the expressions evaluated in the
session must not need a random number, since the source is shared. -/
theorem sessions_do_not_interfere (lifetime capacity now : Int) (random other : RandomSource)
    (requests : List Request) (id : String) (number : Nat)
    (drawsNothing : ∀ inquiry, .ask id inquiry ∈ requests → inquiry.DrawsNothing) :
    let transcript := (start lifetime capacity 0 now random).transcript requests
    let alone := sessionId (number + 1)
    transcript.filterMap (observed? id) =
      ((start lifetime capacity number now other).transcript
        (transcript.filterMap (kept? id alone))).filterMap (observed? alone) :=
  (together_start lifetime capacity now random other id number).transcripts drawsNothing

/-- Requests for two sessions, of which the second one is left alone until it expires. -/
def interleaved : List Request :=
  [.create {}, .create {}, .ask (sessionId 1) (.evaluate "x=2"),
    .ask (sessionId 2) (.evaluate "x=3*rand(0)"), .advance 8, .ask (sessionId 1) (.evaluate "x/y"),
    .advance 8, .create {}, .get (sessionId 1), .clear, .ask (sessionId 1) .listVariables]

theorem sessions_do_not_interfere_interleaved :
    (∀ inquiry, .ask (sessionId 1) inquiry ∈ interleaved → inquiry.DrawsNothing) ∧
      let transcript := (start 10 2 0 0 (.cycling [])).transcript interleaved
      transcript.length = 11 ∧
        (transcript.filterMap (kept? (sessionId 1) (sessionId 5))).length = 8 ∧
        transcript.filterMap (observed? (sessionId 1)) =
          ((start 10 2 4 0 (.cycling [])).transcript
            (transcript.filterMap (kept? (sessionId 1) (sessionId 5)))).filterMap
              (observed? (sessionId 5)) := by
  have different : sessionId 1 ≠ sessionId 2 := by decide +kernel
  have drawsNothing : ∀ inquiry, .ask (sessionId 1) inquiry ∈ interleaved →
      inquiry.DrawsNothing := by
    intro inquiry member
    simp only [interleaved, List.mem_cons, Request.ask.injEq, different, reduceCtorEq, false_and,
      true_and, false_or, or_false, List.not_mem_nil] at member
    rcases member with rfl | rfl | rfl
    · show ∀ token ∈ tokenize "x=2", token.text ≠ randomText
      decide +kernel
    · show ∀ token ∈ tokenize "x/y", token.text ≠ randomText
      decide +kernel
    · trivial
  exact ⟨drawsNothing, by decide +kernel, by decide +kernel,
    sessions_do_not_interfere 10 2 0 (.cycling []) (.cycling []) interleaved (sessionId 1) 4
      drawsNothing⟩

end Reckoner.Desk
