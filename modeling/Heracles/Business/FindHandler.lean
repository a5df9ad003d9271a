import Heracles.Business.EventRepos

/-!
The settings of a service.

`get_service_conf` has no entity to look up. It takes the first handler, in the
order of identities, whose identity begins with the name of the service, and so
also one of a service whose name is longer. `own_settings_iff`: it finds the
service itself exactly when every such handler comes after one of its own.
-/

namespace Heracles.Business.EventRepos

open Heracles.Base

/-- `find_event_handler`. -/
def findEventHandler (repos : EventRepos) (service : Bytes) : Option Handler :=
  if service = [] then none
  else
    (repos.handlers.entries.find? fun e => strncmpEq service.length e.1 service).map Prod.snd

/-- `get_service_conf`. -/
def getServiceConf (repos : EventRepos) (service : Bytes) : Option HandlerConf :=
  (repos.findEventHandler service).map fun handler => ⟨handler.conf, handler.storeType⟩

/-- A handler is found exactly when there is one for the service, it is one of
these, and the settings reported are its own. -/
structure OwnSettings (repos : EventRepos) (service : Bytes) : Prop where
  found : (repos.findEventHandler service).isSome ↔
    ∃ handler ∈ repos.handlers.values, handler.service = service
  own : ∀ handler, repos.findEventHandler service = some handler → handler.service = service
  reported : ∀ conf, repos.getServiceConf service = some conf →
    ∃ handler ∈ repos.handlers.values, handler.service = service ∧
      conf = ⟨handler.conf, handler.storeType⟩

/-- Before every handler of another service whose identity begins with the name
there is one of the service. -/
def PrecededByOwn (repos : EventRepos) (service : Bytes) : Prop :=
  ∀ e ∈ repos.handlers.entries, strncmpEq service.length e.1 service = true →
    e.2.service ≠ service →
      ∃ other ∈ repos.handlers.entries, other.2.service = service ∧ other.1 < e.1

section Lookup

variable {repos : EventRepos} {service : Bytes}

/-- The identity of a handler begins with its service. -/
theorem begins_of_identified (identified : Identified repos) {e : Bytes × Handler}
    (kept : e ∈ repos.handlers.entries) : strncmpEq e.2.service.length e.1 e.2.service = true := by
  rw [identified e.1 e.2 (OrdMap.mem_entries_iff.mp kept), constructIdentity]
  exact strncmpEq_append _ _

theorem exists_of_found {handler : Handler} (found : repos.findEventHandler service = some handler) :
    ∃ identity, (identity, handler) ∈ repos.handlers.entries ∧
      strncmpEq service.length identity service = true ∧
      ∀ other ∈ repos.handlers.entries, strncmpEq service.length other.1 service = true →
        ¬ other.1 < identity := by
  unfold findEventHandler at found
  split at found
  · cases found
  · obtain ⟨⟨identity, kept⟩, first, rfl⟩ := Option.map_eq_some_iff.mp found
    exact ⟨identity, OrdMap.first_entry first⟩

/-- The settings that a service gets are its own exactly when no handler of another
service stands before its own under an identity that begins with the name. -/
theorem own_settings_iff (identified : Identified repos) (named : service ≠ []) :
    OwnSettings repos service ↔ PrecededByOwn repos service := by
  have isSome_of_begins {e : Bytes × Handler} (kept : e ∈ repos.handlers.entries)
      (begins : strncmpEq service.length e.1 service = true) :
      (repos.findEventHandler service).isSome := by
    rw [findEventHandler, if_neg named, Option.isSome_map, List.find?_isSome]
    exact ⟨e, kept, begins⟩
  constructor
  · intro right e kept begins foreign
    obtain ⟨handler, found⟩ := Option.isSome_iff_exists.mp (isSome_of_begins kept begins)
    obtain ⟨identity, inside, _, first⟩ := exists_of_found found
    have own := right.own handler found
    refine ⟨(identity, handler), inside, own, lt_of_le_of_ne (not_lt.mp (first e kept begins)) ?_⟩
    rintro rfl
    have same := repos.handlers.eq_of_mem inside kept
    exact foreign (same ▸ own)
  · intro preceded
    have own (handler : Handler) (found : repos.findEventHandler service = some handler) :
        handler.service = service := by
      obtain ⟨identity, inside, begins, first⟩ := exists_of_found found
      by_contra foreign
      obtain ⟨other, kept, ofService, before⟩ := preceded _ inside begins foreign
      refine first other kept ?_ before
      have itsOwn := begins_of_identified identified kept
      rwa [ofService] at itsOwn
    refine ⟨⟨fun some => ?_, ?_⟩, own, fun conf reported => ?_⟩
    · obtain ⟨handler, found⟩ := Option.isSome_iff_exists.mp some
      obtain ⟨identity, inside, _⟩ := exists_of_found found
      exact ⟨handler, List.mem_map_of_mem inside, own handler found⟩
    · rintro ⟨handler, member, ofService⟩
      obtain ⟨e, kept, rfl⟩ := List.mem_map.mp member
      have begins := begins_of_identified identified kept
      rw [ofService] at begins
      exact isSome_of_begins kept begins
    · obtain ⟨handler, found, rfl⟩ := Option.map_eq_some_iff.mp reported
      obtain ⟨identity, inside, _⟩ := exists_of_found found
      exact ⟨handler, List.mem_map_of_mem inside, own handler found, rfl⟩

end Lookup

/-- Reports for services and entities have made their handlers. -/
private def madeFor (pairs : List (Bytes × Bytes)) : EventRepos :=
  run EventRepos.step (ofDefault 10) (pairs.map fun pair =>
    .request (oneEvent pair.1 pair.2) (allWell 0))

private theorem identified_madeFor (pairs : List (Bytes × Bytes)) :
    Identified (madeFor pairs) := by
  refine run_invariant (P := Identified) (fun _ a kept => kept.step a) ?_ _
  intro k h kept
  cases kept

/-- Two services, one of which is the beginning of the other. -/
theorem own_settings_iff_two :
    OwnSettings (madeFor [(bytes "ab", []), (bytes "a", bytes "1")]) (bytes "a") ↔
      PrecededByOwn (madeFor [(bytes "ab", []), (bytes "a", bytes "1")]) (bytes "a") :=
  own_settings_iff (identified_madeFor _) (by decide)

/-- Only `ab` has a handler, and it answers for `a`. -/
theorem longer_name_answers :
    ¬ ∀ (repos : EventRepos) (service : Bytes), Identified repos → service ≠ [] →
      OwnSettings repos service := by
  intro always
  have right := always (madeFor [(bytes "ab", [])]) (bytes "a") (identified_madeFor _) (by decide)
  have found : ((madeFor [(bytes "ab", [])]).findEventHandler (bytes "a")).map (·.service) =
      some (bytes "ab") := by
    decide +kernel
  obtain ⟨handler, answers, service⟩ := Option.map_eq_some_iff.mp found
  have own := right.own handler answers
  rw [service] at own
  exact absurd own (by decide)

end Heracles.Business.EventRepos
