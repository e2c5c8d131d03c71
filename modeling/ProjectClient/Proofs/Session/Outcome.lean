import ProjectClient.Proofs.Session.Tells
import ProjectClient.Proofs.Wire.Encode

/-! What a session makes of the answers of a server. -/
namespace ProjectClient.Session

/-- Every command starts over: behind any commands, with any answers, it has the result that it has
on a fresh kernel and the same comes out. It succeeds if and only if the server's answers are good
and the user wants it, and shows what the server listed last. -/
theorem outcomes_mirror_answers (resource : Http.Resource) (past : List (Job × Script))
    (script : Script) :
    let kernel := kernelAfter resource past
    let list := resource.request .list
    (∀ job : Job,
      (job.run resource script kernel).1.1 = (job.run resource script {}).1.1 ∧
      (job.run resource script kernel).2 = (job.run resource script {}).2) ∧
    (∀ withSteps view,
      ((Job.list withSteps).run resource script kernel).1.1 = .ok (.view view) ↔
        ∃ listing, script.Lists [list] listing ∧ view = .ofProjects listing.projects) ∧
    (∀ name, ¬ Text.IsBlank name →
      let create := resource.request (.create (Text.trim name))
      ((∃ view, ((Job.create name).run resource script kernel).1.1 = .ok (.view view)) ↔
        script.Accepts [create] ∧ ∃ listing, script.Lists [create, list] listing)) ∧
    (∀ text,
      ((Job.delete text).run resource script kernel).1.1 = .ok (.sent true) ↔
        ∃ listing project, script.Lists [list] listing ∧
          find? listing.projects text = some project ∧ script.confirmed = .ok true ∧
          let delete := resource.request (.delete project.id)
          script.Accepts [list, delete] ∧
            ∃ last, script.Lists [list, delete, list] last) := by
  intro kernel list
  obtain ⟨page, mirrors⟩ := kernelAfter_mirrors resource past
  have result (job : Job) : (job.run resource script kernel).1.1 = job.result resource script := by
    obtain ⟨desk, run⟩ := job.run_of_mirrors resource script
    exact (run kernel page mirrors).1
  refine ⟨fun job => ?_, fun withSteps view => ?_, fun name named => ?_, fun text => ?_⟩
  · obtain ⟨desk, run⟩ := job.run_of_mirrors resource script
    obtain ⟨own, out, _⟩ := run kernel page mirrors
    obtain ⟨fresh, out', _⟩ := run {} {} Kernel.mirrors_initial
    exact ⟨own.trans fresh.symm, out.trans out'.symm⟩
  · rw [result]
    exact Job.result_list_eq_ok
  · simp only [result]
    exact Job.exists_result_create_eq_ok named
  · rw [result]
    exact Job.result_delete_eq_ok_true

/-- A question that was never answered and a list that never came leave a delete that waits and an
error in the status line. A project can be created all the same. -/
theorem outcomes_mirror_answers_of_unanswered :
    let root : Url := { scheme := .http, host := .domain "host", path := [""] }
    let resource : Http.Resource := { base := root, collection := root.projects }
    let listing : Listing := ⟨[{ id := "p1", name := "Site" }]⟩
    let site : Http.Answer := .ok ⟨200, .ok (Text.utf8 listing.json)⟩
    let past := [(.delete "site", .ofAnswers [site] (.error (.unanswered "no terminal"))),
      (.list false, .ofAnswers [] (.ok false))]
    let script := Script.ofAnswers [.ok ⟨201, .error "cut short"⟩, site] (.ok false)
    ¬ Text.IsBlank "Docs" ∧
    ∃ view, ((Job.create "Docs").run resource script (kernelAfter resource past)).1.1 =
      .ok (.view view) := by
  intro root resource listing site past script
  have named : ¬ Text.IsBlank "Docs" := by decide
  refine ⟨named, ((outcomes_mirror_answers resource past script).2.2.1 "Docs" named).2 ⟨?_, ?_⟩⟩
  · exact ⟨⟨201, .error "cut short"⟩, rfl, by decide, by decide⟩
  · exact ⟨listing, _, _, rfl, by decide, by decide, rfl, listing.decode_utf8_json⟩

end ProjectClient.Session
