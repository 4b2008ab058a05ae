import TrafficAnalyzers.Proofs.Resolution.Records
import TrafficAnalyzers.Proofs.Roster.Registration
/-!
Resolution seen on the roster. Main statement: a resolution leaves the roster as it is, also one
that stops at a fault.
-/
namespace TrafficAnalyzers.Registry

/-- Tasks are done up to some point, wherever that is. -/
theorem exists_applyAll (ts : List Task) (r : Registry LocalHost) :
    ∃ done rest, ts = done ++ rest ∧ (carryOut ts r).2 = Task.applyAll done r := by
  by_cases h : Faultless ts
  · exact ⟨ts, [], (List.append_nil ts).symm, by rw [carryOut_faultless h]⟩
  · obtain ⟨done, fault, rest, hts, -, hout⟩ := carryOut_stopped h r
    exact ⟨done, _, hts, by rw [hout]⟩

theorem roster_applyAll {ts : List Task} {r : Registry LocalHost} (hr : r.analyzers.Placed)
    (ht : ∀ t ∈ ts, t.Renews r.analyzers) : (Task.applyAll ts r).roster = r.roster := by
  have hsame := congrArg Analyzers.descriptor? (Task.foldl_store hr ht).2
  rw [Analyzers.descriptor?_unresolved, Analyzers.descriptor?_unresolved] at hsame
  exact congrArg r.host.roster hsame

/-- Whether it succeeds or not, a resolution does tasks that renew records. -/
theorem state_resolve (parsers : List Parser) (r : Registry LocalHost) :
    ∃ done, (r.analyzers.Placed → ∀ t ∈ done, t.Renews r.analyzers) ∧
      (resolve parsers r).state = Task.applyAll done r := by
  obtain ⟨done, rest, hts, hout⟩ := exists_applyAll (schedule r.host parsers r.analyzers) r
  refine ⟨done, fun hr t ht => ?_, ?_⟩
  · exact renews_schedule hr t (hts ▸ List.mem_append_left rest ht)
  · rw [state_eq_silent, silent_resolve, hout]

theorem follows_resolve (parsers : List Parser) : (resolve parsers).Follows Leads := by
  intro r hr
  obtain ⟨done, hrenews, hstate⟩ := state_resolve parsers r
  rw [hstate]
  exact ⟨(Task.foldl_store hr (hrenews hr)).1, roster_applyAll hr (hrenews hr) ▸ .refl⟩

end TrafficAnalyzers.Registry
