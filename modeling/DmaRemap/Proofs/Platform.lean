import DmaRemap.Proofs.Domains
import DmaRemap.Proofs.Forest

/-! A unit with all its domains. The software calls operations on the domains one after the other;
between two calls the unit may do what it likes. Whatever a call does to the bindings, the ids and
the tables is said once here, and the invariants of all runs follow from it. -/

namespace DmaRemap

open Bindings (Bound Unbound Unbinding)

variable {ρ : Type}

/-- A machine and the domains that live on it. -/
structure Platform (ρ : Type) where
  machine : Machine ρ
  domains : List Domain

/-- What the software may do. Domains are told by their places in the list of those that live. -/
inductive Call where
  | create (pool : Pool) (buffers : List DmaBuffer)
  | addRange (place : Nat) (range : DmaRange) (target : PhysicalAddress)
  | removeRange (place : Nat) (range : DmaRange)
  | enable (place : Nat) (bdf : Bdf)
  | disable (place : Nat) (bdf : Bdf)
  | destroy (place : Nat)
  /-- Gives a domain up without destroying it. -/
  | abandon (place : Nat)

/-- What a call answers. -/
inductive Reply where
  | done
  | bound (outcome : BindOutcome)
  | unbound (outcome : UnbindOutcome)
  | destroyed (pool : Pool)

namespace Platform

def machinePart : Part (Platform ρ) (Machine ρ) :=
  ⟨Platform.machine, fun machine platform => { platform with machine }⟩

/-- The machine and the domain at a place, as long as there is one. -/
def attachedPart (place : Nat) (domain : Domain) : Part (Platform ρ) (Attached ρ) :=
  ⟨fun platform => ⟨platform.machine, domain⟩, fun attached platform =>
    ⟨attached.machine, platform.domains.set place attached.domain⟩⟩

/-- Performs an action on the domain at a place. Without one, nothing happens. -/
def onDomain (place : Nat) (action : Domain → Action (Platform ρ) IommuError Reply) :
    Action (Platform ρ) IommuError Reply := do
  match (← Action.state).domains[place]? with
  | none => return .done
  | some domain => action domain

end Platform

namespace Call

variable [RegisterPage ρ]

open Platform (onDomain machinePart attachedPart)

/-- What a call does. -/
def perform : Call → Action (Platform ρ) IommuError Reply
  | create pool buffers => do
    let domain ← Action.on machinePart (Machine.createDomain pool buffers)
    Action.update fun platform => { platform with domains := domain :: platform.domains }
    return .done
  | addRange place range target => onDomain place fun domain => do
    Action.on (attachedPart place domain) (Attached.addRange range target)
    return .done
  | removeRange place range => onDomain place fun domain => do
    Action.on (attachedPart place domain) (Attached.removeRange range)
    return .done
  | enable place bdf => onDomain place fun domain =>
    Reply.bound <$> Action.on (attachedPart place domain) (Attached.enableDevice bdf)
  | disable place bdf => onDomain place fun domain =>
    Reply.unbound <$> Action.on (attachedPart place domain) (Attached.disableDevice bdf)
  | destroy place => onDomain place fun domain => do
    let pool ← Action.on machinePart (Machine.destroyDomain domain)
    Action.update fun platform => { platform with domains := platform.domains.eraseIdx place }
    return .destroyed pool
  | abandon place => onDomain place fun domain => do
    domain.abandon
    Action.update fun platform => { platform with domains := platform.domains.eraseIdx place }
    return .done

end Call

/-- What every insertion and every removal keep of a table in its pool. -/
structure Stable (invariant : TranslationTable → Pool → Prop) : Prop where
  insert : ∀ {table pool}, invariant table pool → ∀ start target size flags journal,
    (table.insert start target size flags).Ends ⟨pool, journal⟩
      (fun _ last => invariant table last.state) fun _ last => invariant table last.state
  remove : ∀ {table pool}, invariant table pool → ∀ start size journal,
    (table.remove start size).Ends ⟨pool, journal⟩
      (fun _ last => invariant table last.state) fun _ last => invariant table last.state

/-- From one pool to the other a table was changed by insertions and removals alone. -/
def Evolves (table : TranslationTable) (before after : Pool) : Prop :=
  ∀ invariant, Stable invariant → invariant table before → invariant table after

namespace Evolves

variable {table : TranslationTable} {before after : Pool}

theorem refl (table : TranslationTable) (pool : Pool) : Evolves table pool pool :=
  fun _ _ => id

theorem insert_ends (evolves : Evolves table before after) (start : VirtualAddress)
    (target : PhysicalAddress) (size : Nat) (flags : PageFlags) (journal : Journal) :
    (table.insert start target size flags).Ends ⟨after, journal⟩
      (fun _ last => Evolves table before last.state)
      fun _ last => Evolves table before last.state :=
  .all fun invariant => .all fun stable => .all fun (kept : invariant table before) =>
    stable.insert (evolves invariant stable kept) ..

theorem remove_ends (evolves : Evolves table before after) (start : VirtualAddress) (size : Nat)
    (journal : Journal) :
    (table.remove start size).Ends ⟨after, journal⟩
      (fun _ last => Evolves table before last.state)
      fun _ last => Evolves table before last.state :=
  .all fun invariant => .all fun stable => .all fun (kept : invariant table before) =>
    stable.remove (evolves invariant stable kept) ..

theorem window (evolves : Evolves table before after) : after.window = before.window := by
  apply evolves fun _ pool => pool.window = before.window
  · have keeps {action : Action Pool TableError Unit} {pool : Pool}
        (stays : action.Keeps (Pool.Stays fun _ => True)) (kept : pool.window = before.window)
        (journal : Journal) : action.Ends ⟨pool, journal⟩
          (fun _ last => last.state.window = before.window)
          (fun _ last => last.state.window = before.window) :=
      (stays.ends _).mono (fun _ _ now => now.window.trans kept)
        (fun _ _ now => now.window.trans kept)
    constructor
    · exact fun kept start target size flags =>
        keeps (TranslationTable.stays_insert _ (fun _ _ _ => trivial) (fun _ => trivial) ..) kept
    · exact fun kept start size =>
        keeps (TranslationTable.stays_remove _ (fun _ _ _ => trivial) (fun _ => trivial) ..) kept
  · rfl

theorem edited (evolves : Evolves table before after) (fits : table.format.Fits before)
    {branches : Branches} (held : table.Held before branches) :
    table.format.Fits after ∧ ∃ branches',
      table.format.Edited before after table.format.levels table.root branches branches' := by
  apply evolves fun table pool => table.format.Fits pool ∧ ∃ branches',
    table.format.Edited before pool table.format.levels table.root branches branches'
  · constructor
    · rintro table pool ⟨fits, branches', edited⟩ start target size flags journal
      apply (TranslationTable.insert_ends edited.held fits start target size flags).mono
      · intro _ last ended
        obtain ⟨_, branches'', edited', _⟩ := ended
        exact ⟨fits.exchange edited'.exchange, branches'', edited.trans edited'⟩
      · intro cause last ended
        rcases ended with ⟨⟨same, _⟩, _⟩ | ⟨_, _, _, _, ⟨branches'', edited', _⟩, _⟩
        · rw [same]
          exact ⟨fits, branches', edited⟩
        · exact ⟨fits.exchange edited'.exchange, branches'', edited.trans edited'⟩
    · rintro table pool ⟨fits, branches', edited⟩ start size journal
      apply (TranslationTable.remove_ends edited.held start size).mono
      · exact fun _ last ended => ⟨fits.exchange ended.2.exchange, _, edited.trans ended.2⟩
      · intro cause last ended
        rw [ended.1]
        exact ⟨fits, branches', edited⟩
  · exact ⟨fits, branches, held.unedited⟩

theorem held (evolves : Evolves table before after)
    (holds : table.format.Fits before ∧ ∃ branches, table.Held before branches) :
    table.format.Fits after ∧ ∃ branches, table.Held after branches := by
  obtain ⟨fits, branches, held⟩ := holds
  obtain ⟨fits', branches', edited⟩ := evolves.edited fits held
  exact ⟨fits', branches', edited.held⟩

theorem trans {middle : Pool} (first : Evolves table before middle)
    (second : Evolves table middle after) : Evolves table before after :=
  fun invariant stable kept => second invariant stable (first invariant stable kept)

end Evolves

/-- A table that was made in a pool and has changed since then. -/
def Made (pool : Pool) (table : TranslationTable) (now : Pool) : Prop :=
  ∃ first, table.format = .secondLevel ∧ table.Held first Format.blank ∧
    pool.Exchanges first [] (table.nodes Format.blank) ∧ Evolves table first now

theorem made_ends (pool : Pool) (coherency : Coherency) (journal : Journal) :
    (TranslationTable.create .secondLevel coherency).Ends ⟨pool, journal⟩
      (fun table last => Made pool table last.state) fun _ _ => True := by
  apply (TranslationTable.create_ends _ _ _).mono _ fun _ _ _ => trivial
  intro table last ended
  obtain ⟨format, held, taken⟩ := ended
  exact ⟨last.state, format, held, taken, .refl _ _⟩

theorem Made.window {pool now : Pool} {table : TranslationTable} (made : Made pool table now) :
    now.window = pool.window ∧ pool.window.Contains table.root := by
  obtain ⟨first, _, held, taken, evolves⟩ := made
  have same : first.window = pool.window := by rw [Pool.window, taken.base, taken.size]; rfl
  exact ⟨evolves.window.trans same, same ▸ Window.contains_of_node? held.node⟩

theorem Made.held {pool now : Pool} {table : TranslationTable} (made : Made pool table now)
    (fits : Format.secondLevel.Fits pool) :
    table.format.Fits now ∧ ∃ branches, table.Held now branches := by
  obtain ⟨first, format, held, taken, evolves⟩ := made
  rw [← format] at fits
  exact evolves.held ⟨fits.exchange taken, _, held⟩

theorem Made.insert_ends {pool now : Pool} {table : TranslationTable} (made : Made pool table now)
    (start : VirtualAddress) (target : PhysicalAddress) (size : Nat) (flags : PageFlags)
    (journal : Journal) :
    (table.insert start target size flags).Ends ⟨now, journal⟩
      (fun _ last => Made pool table last.state) fun _ last => Made pool table last.state := by
  obtain ⟨first, format, held, taken, evolves⟩ := made
  apply (evolves.insert_ends start target size flags journal).mono
  · exact fun _ _ evolves => ⟨first, format, held, taken, evolves⟩
  · exact fun _ _ evolves => ⟨first, format, held, taken, evolves⟩

theorem Made.trans {pool now after : Pool} {table : TranslationTable}
    (made : Made pool table now) (evolves : Evolves table now after) : Made pool table after := by
  obtain ⟨first, format, held, taken, before⟩ := made
  exact ⟨first, format, held, taken, before.trans evolves⟩

/-- The pool holds the table in nodes that it took from the pool it was made in. -/
theorem Made.takes {pool now : Pool} {table : TranslationTable} (made : Made pool table now)
    (fits : Format.secondLevel.Fits pool) :
    ∃ branches, table.Held now branches ∧ pool.Exchanges now [] (table.nodes branches) := by
  obtain ⟨first, format, held, taken, evolves⟩ := made
  rw [← format] at fits
  obtain ⟨_, branches, edited⟩ := evolves.edited (fits.exchange taken) held
  exact ⟨branches, edited.held, taken.trans edited.exchange⟩

/-- Whether a pool is what is left of a domain's pool when all nodes of its table are given back. -/
def Domain.Frees (domain : Domain) (pool : Pool) : Prop :=
  ∀ branches, domain.table.Held domain.pool branches →
    domain.pool.Exchanges pool (domain.table.nodes branches) []

theorem Machine.gives_destroyDomain {ε : Type} [RegisterPage ρ] (domain : Domain) :
    (destroyDomain domain : Action (Machine ρ) ε Pool).Gives domain.Frees := by
  have released : (Action.beside domain.pool (Action.on .second (Domain.release domain.table)) :
      Action (Machine ρ) ε (Except Empty Unit × Pool)).Gives fun left => domain.Frees left.2 := by
    constructor
    intro start
    rw [Action.ends_beside, Action.ends_on]
    have ends : (Domain.release domain.table : Action Pool Empty Unit).Ends
        ⟨domain.pool, start.journal⟩ (fun _ last => domain.Frees last.state)
        fun _ _ => ∀ branches, domain.table.Held domain.pool branches → False := by
      refine .all fun branches => .all fun held => ?_
      rw [Domain.release, Action.ends_bind]
      apply (TranslationTable.clear_ends held).mono _ fun _ _ => id
      exact fun _ _ cleared => TranslationTable.destruct_root_ends cleared
    apply ends.mono
    · exact fun _ _ => id
    · rintro (cause | reason) _ _
      · exact cause.elim
      · trivial
  exact .after fun _ => .after fun _ => .after fun _ => .after fun _ => .after fun _ =>
    .bind released fun _ => .pure

/-- A call that finds nothing to change: there is no such domain, or no memory for the context table
of a device. -/
def Call.Idles (domains : List Domain) (reply : Except IommuError Reply) : Call → Prop
  | create .. => False
  | enable place _ => domains[place]? = none ∨ ∃ error, reply = .error error
  | addRange place .. | removeRange place _ | disable place _ | destroy place | abandon place =>
    domains[place]? = none

/-- Whether a call changes the table of the domain at a place. -/
def Call.Edits (place : Nat) : Call → Prop
  | addRange other .. | removeRange other _ => other = place
  | _ => False

/-- What a call that was completed has done, by its answer. -/
inductive Call.Does (start : Journaled (Platform ρ)) :
    Call → Except IommuError Reply → Journaled (Platform ρ) → Prop where
  | idle {call : Call} {reply : Except IommuError Reply} {last : Journaled (Platform ρ)}
      (same : last.state = start.state) (idles : call.Idles start.state.domains reply) :
      Does start call reply last
  | created {pool : Pool} {buffers : List DmaBuffer} {domain : Domain} {ids : DomainIds}
      {last : Journaled (Platform ρ)} (made : Made pool domain.table domain.pool)
      (taken : start.state.machine.controller.ids.take = (some domain.id, ids))
      (controller : last.state.machine.controller = { start.state.machine.controller with ids })
      (domains : last.state.domains = domain :: start.state.domains)
      (empty : domain.devices = []) : Does start (.create pool buffers) (.ok .done) last
  | uncreated {pool : Pool} {buffers : List DmaBuffer} {error : IommuError}
      {contexts : Fin 256 → Option PhysicalAddress} {last : Journaled (Platform ρ)}
      (wired : start.state.machine.controller.bindings.Wired contexts)
      (uncreated : Machine.Uncreated (Made pool) contexts
        start.state.machine.controller last.state.machine.controller)
      (domains : last.state.domains = start.state.domains) :
      Does start (.create pool buffers) (.error error) last
  | edited {call : Call} {reply : Except IommuError Reply} {place : Nat} {domain : Domain}
      {pool : Pool} {last : Journaled (Platform ρ)}
      (here : start.state.domains[place]? = some domain)
      (evolves : Evolves domain.table domain.pool pool)
      (controller : last.state.machine.controller = start.state.machine.controller)
      (domains : last.state.domains = start.state.domains.set place { domain with pool })
      (edits : call.Edits place) : Does start call reply last
  | bound {place : Nat} {bdf : Bdf} {domain : Domain} {outcome : BindOutcome}
      {middle : Journaled Bindings} {devices : List Bdf} {last : Journaled (Platform ρ)}
      (here : start.state.domains[place]? = some domain)
      (bound : Bound ⟨start.state.machine.controller.bindings, start.journal⟩ bdf
        domain.table.root domain.id outcome middle)
      (issues : middle.journal.Issues last.journal [])
      (told : ∀ previous, outcome = .replaced previous →
        start.state.machine.controller.unit.Flushed previous.domain (some bdf.routingId)
          middle.journal last.journal)
      (controller : last.state.machine.controller =
        { start.state.machine.controller with bindings := middle.state })
      (domains : last.state.domains = start.state.domains.set place { domain with devices })
      (listed : devices = Domain.insertDevice bdf domain.devices) :
      Does start (.enable place bdf) (.ok (.bound outcome)) last
  | unbound {place : Nat} {bdf : Bdf} {domain : Domain} {outcome : UnbindOutcome}
      {middle : Journaled Bindings} {devices : List Bdf} {last : Journaled (Platform ρ)}
      (here : start.state.domains[place]? = some domain)
      (unbound : Unbound ⟨start.state.machine.controller.bindings, start.journal⟩ bdf
        domain.table.root outcome middle)
      (issues : middle.journal.Issues last.journal [])
      (told : start.state.machine.controller.unit.Flushed domain.id none middle.journal
        last.journal)
      (controller : last.state.machine.controller =
        { start.state.machine.controller with bindings := middle.state })
      (domains : last.state.domains = start.state.domains.set place { domain with devices })
      (listed : devices = domain.devices.filter (· != bdf)) :
      Does start (.disable place bdf) (.ok (.unbound outcome)) last
  | destroyed {place : Nat} {domain : Domain} {pool : Pool}
      {contexts : Fin 256 → Option PhysicalAddress} {middle : Journaled Bindings}
      {flushed : Journaled (Machine ρ)} {last : Journaled (Platform ρ)}
      (here : start.state.domains[place]? = some domain)
      (wired : start.state.machine.controller.bindings.Wired contexts)
      (unbinding : Unbinding ⟨start.state.machine.controller.bindings, start.journal⟩ middle
        contexts domain.table.root (List.finRange 256))
      (destroys : Machine.Destroys ⟨start.state.machine, start.journal⟩ domain middle flushed
        ⟨last.state.machine, last.journal⟩)
      (domains : last.state.domains = start.state.domains.eraseIdx place)
      (frees : domain.Frees pool) : Does start (.destroy place) (.ok (.destroyed pool)) last
  | abandoned {place : Nat} {last : Journaled (Platform ρ)}
      (controller : last.state.machine.controller = start.state.machine.controller)
      (domains : last.state.domains = start.state.domains.eraseIdx place) :
      Does start (.abandon place) (.ok .done) last

namespace Platform

theorem set_domains {platform : Platform ρ} {place : Nat} {domain : Domain}
    (here : platform.domains[place]? = some domain) :
    platform.domains.set place domain = platform.domains := by
  obtain ⟨inside, rfl⟩ := List.getElem?_eq_some_iff.mp here
  exact List.set_getElem_self inside

theorem onDomain_ends {place : Nat} {action : Domain → Action (Platform ρ) IommuError Reply}
    {start : Journaled (Platform ρ)} {returns : Reply → Journaled (Platform ρ) → Prop}
    {fails : Failure IommuError → Journaled (Platform ρ) → Prop}
    (none : start.state.domains[place]? = none → returns .done start)
    (some : ∀ domain, start.state.domains[place]? = some domain →
      (action domain).Ends start returns fails) :
    (onDomain place action).Ends start returns fails := by
  unfold onDomain
  simp only [Action.ends_bind, Action.ends_state]
  cases here : start.state.domains[place]? with
  | none => exact (Action.ends_pure _).mpr (none here)
  | some domain => exact some domain here

end Platform

namespace Call

open Platform (onDomain_ends)

theorem Does.of_edits {start : Journaled (Platform ρ)} {call : Call}
    {reply : Except IommuError Reply} {place : Nat} {domain : Domain} {middle : Journaled Pool}
    {last : Journaled (Attached ρ)} {wanted : List Effect}
    (here : start.state.domains[place]? = some domain)
    (evolves : Evolves domain.table domain.pool middle.state)
    (edits : Attached.Edits ⟨⟨start.state.machine, domain⟩, start.journal⟩ middle last wanted)
    (named : call.Edits place) :
    call.Does start reply
      ⟨(Platform.attachedPart place domain).set last.state start.state, last.journal⟩ :=
  .edited here evolves edits.controller (congrArg (start.state.domains.set place) edits.domain)
    named

/-- An operation on a domain that changes its table, and nothing else of the platform, is an edit
whether it succeeds or not. -/
theorem edit_ends {start : Journaled (Platform ρ)} {call : Call} {place : Nat}
    {domain : Domain} {action : Action (Attached ρ) IommuError Unit} {told untold : List Effect}
    (here : start.state.domains[place]? = some domain) (named : call.Edits place)
    (ends : action.Ends ⟨⟨start.state.machine, domain⟩, start.journal⟩
      (fun _ last => ∃ middle, Evolves domain.table domain.pool middle.state ∧
        Attached.Edits ⟨⟨start.state.machine, domain⟩, start.journal⟩ middle last told)
      (fun cause last => (∃ reason, cause = .abort reason) ∨
        ∃ error middle, cause = .error (.table error) ∧
          Evolves domain.table domain.pool middle.state ∧
          Attached.Edits ⟨⟨start.state.machine, domain⟩, start.journal⟩ middle last untold)) :
    (Action.on (Platform.attachedPart place domain) action).Ends start
      (fun _ last => call.Does start (.ok .done) last)
      (fun cause last => (∃ reason, cause = .abort reason) ∨
        ∃ error, cause = .error error ∧ call.Does start (.error error) last) := by
  rw [Action.ends_on]
  apply ends.mono
  · intro _ last ended
    obtain ⟨middle, evolves, edits⟩ := ended
    exact .of_edits here evolves edits named
  · intro cause last ended
    rcases ended with aborted | ⟨error, middle, rfl, evolves, edits⟩
    · exact .inl aborted
    · exact .inr ⟨_, rfl, .of_edits here evolves edits named⟩

variable [RegisterPage ρ] [QuietPage ρ]

/-- A call either aborts or does what its answer says. -/
theorem perform_ends {start : Journaled (Platform ρ)} {contexts : Fin 256 → Option PhysicalAddress}
    (wired : start.state.machine.controller.bindings.Wired contexts) (call : Call) :
    call.perform.Ends start (fun reply last => call.Does start (.ok reply) last)
      (fun cause last => (∃ reason, cause = .abort reason) ∨
        ∃ error, cause = .error error ∧ call.Does start (.error error) last) := by
  cases call with
  | create pool buffers =>
    simp only [perform, Action.ends_bind, Action.ends_on, Action.ends_update, Action.ends_pure]
    apply (Machine.createDomain_ends wired (made_ends pool) Made.insert_ends buffers).mono
    · intro domain last ended
      obtain ⟨ids, taken, controller, made, empty⟩ := ended
      exact .created made taken controller rfl empty
    · intro cause last ended
      rcases ended with aborted | ⟨error, rfl, uncreated⟩
      · exact .inl aborted
      · exact .inr ⟨error, rfl, .uncreated wired uncreated rfl⟩
  | addRange place range target =>
    apply onDomain_ends (.idle rfl ·)
    intro domain here
    simp only [Action.ends_bind, Action.ends_pure]
    exact edit_ends here rfl (Attached.addRange_ends (Evolves.insert_ends (.refl _ _) ..))
  | removeRange place range =>
    apply onDomain_ends (.idle rfl ·)
    intro domain here
    simp only [Action.ends_bind, Action.ends_pure]
    exact edit_ends here rfl (Attached.removeRange_ends (Evolves.remove_ends (.refl _ _) ..))
  | enable place bdf =>
    apply onDomain_ends fun absent => .idle rfl (.inl absent)
    intro domain here
    simp only [Action.ends_map, Action.ends_on]
    apply (Attached.enableDevice_ends (Bindings.bind_ends wired ..)).mono
    · intro outcome last ended
      obtain ⟨middle, ⟨bound, _⟩, binds⟩ := ended
      exact .bound here bound binds.rewires.issues binds.flushed binds.rewires.controller
        (congrArg (start.state.domains.set place) binds.domain) rfl
    · intro cause last ended
      rcases ended with aborted | ⟨error, middle, rfl, failed, rfl⟩
      · exact .inl aborted
      · rcases failed with ⟨_, aborted, _⟩ | ⟨_, same, _⟩
        · cases aborted
        · refine .inr ⟨_, rfl, .idle ?_ (.inr ⟨_, rfl⟩)⟩
          rw [same]
          exact congrArg (Platform.mk start.state.machine) (Platform.set_domains here)
  | disable place bdf =>
    apply onDomain_ends (.idle rfl ·)
    intro domain here
    simp only [Action.ends_map, Action.ends_on]
    apply (Attached.disableDevice_ends (Bindings.unbind_ends wired ..) fun _ _ aborted =>
      aborted.imp fun _ => And.left).mono
    · intro outcome last ended
      obtain ⟨middle, ⟨unbound, _⟩, unbinds⟩ := ended
      exact .unbound here unbound unbinds.rewires.issues unbinds.flushed
        unbinds.rewires.controller (congrArg (start.state.domains.set place) unbinds.domain) rfl
    · exact fun _ _ => .inl
  | destroy place =>
    apply onDomain_ends (.idle rfl ·)
    intro domain here
    simp only [Action.ends_bind, Action.ends_on, Action.ends_update, Action.ends_pure]
    apply ((Machine.destroyDomain_ends (Bindings.unbindAll_ends wired _) fun _ _ => id).and
      ((Machine.gives_destroyDomain domain).ends _)).mono
    · intro pool last ended
      obtain ⟨⟨_, middle, flushed, unbinding, destroys⟩, frees⟩ := ended
      exact .destroyed here wired unbinding destroys rfl frees
    · exact fun _ _ ended => .inl ended.1
  | abandon place =>
    apply onDomain_ends (.idle rfl ·)
    intro domain _
    simp only [Domain.abandon, Action.ends_bind, Action.ends_record, Action.ends_update,
      Action.ends_pure]
    exact .abandoned rfl rfl

end Call

end DmaRemap
