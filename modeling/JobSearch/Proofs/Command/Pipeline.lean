import JobSearch.Command.Outcome
import JobSearch.Proofs.Form.Build

/-!
# A query taken apart and put together again

What the program prints for a query that it takes apart is a form. The program that builds a query
from this form ends as it would end if it built the query from the parts themselves: the form and
the writer refuse different things at different stages, but neither of them lets pass what the other
refuses.
-/

namespace JobSearch

namespace Command

/-- Behind two hyphens every text is a query. -/
theorem ofArguments_parse (q : Text) :
    ofArguments ["parse".toList, "--".toList, q] = .ok (.parse q) := rfl

theorem ofArguments_build_input :
    ofArguments ["build".toList, "--json".toList, "-".toList] = .ok (.buildForm .input) := by
  decide

end Command

namespace Sources

/-- Text on the standard input is read as it is. -/
theorem parts_input {s : Sources} {t : Text} (h : s.input = .ok t.utf8) :
    s.parts .input = (Form.parts t).mapError .query := by
  have ht : textOfBytes t.utf8 = .ok t := by
    rw [textOfBytes, Text.ofUtf8?_utf8]
  rw [parts, form, h, Except.bind, ht]
  rfl

end Sources

namespace Outcome

/-- A query that is built is shown as a line; where it is not, nothing is shown. -/
theorem ofResult_built (e : Engine) (ps : List Part) :
    (∃ t, e.build ps = .ok t ∧ (ofResult (Command.built e ps)).code = 0 ∧
      (ofResult (Command.built e ps)).output = asLine t) ∨
    ∃ err, e.build ps = .error err ∧ (ofResult (Command.built e ps)).code = 1 ∧
      (ofResult (Command.built e ps)).output = [] := by
  rw [Command.built, Command.shown]
  cases e.build ps with
  | ok t => exact Or.inl ⟨t, rfl, rfl, rfl⟩
  | error err => exact Or.inr ⟨err, rfl, rfl, rfl⟩

/-- Parts that go through a form come to what they come to directly, but for the diagnosis. -/
theorem ofResult_built_throughForm (e : Engine) (ps : List Part) :
    let piped := ofResult (((Part.throughForm ps).mapError .query).bind (Command.built e))
    let direct := ofResult (Command.built e ps)
    piped.code = direct.code ∧ piped.output = direct.output := by
  intro piped direct
  obtain ⟨qs, hq, hb⟩ | ⟨⟨err, hq⟩, err', hb⟩ := Query.throughForm_cases e.calendar ps
  · have h : piped = direct := by
      simp only [piped, direct, hq, Except.mapError, Except.bind, Command.built, Engine.build, hb]
    rw [h]
    exact ⟨rfl, rfl⟩
  · have hp : piped = failure (CommandError.query err).message (CommandError.query err).cause? := by
      simp only [piped, hq]
      rfl
    have hd : direct =
        failure (CommandError.query err').message (CommandError.query err').cause? := by
      simp only [direct, Command.built, Command.shown, Engine.build, hb]
      rfl
    rw [hp, hd]
    exact ⟨rfl, rfl⟩

end Outcome

namespace Surroundings

/-- With right arguments and a configuration the program carries out the command. -/
theorem run_of_load (w : Surroundings) {args : List Text} {command : Command} {s : Store}
    {c : Config} (hargs : Command.ofArguments args = .ok command)
    (hs : (s.load w.idna).1 = .ok c) :
    (w.run args s).1 = Outcome.ofResult
      (command.run w.idna (Engine.ofConfig w.clock c) (w.sources (s.load w.idna).2)) := by
  rw [run, hargs]
  split
  · next h => cases h
  · next h =>
    obtain rfl := Except.ok.inj h
    split
    · next e _ hload =>
      rw [hload] at hs
      cases hs
    · next config _ hload =>
      rw [hload] at hs ⊢
      obtain rfl := Except.ok.inj hs
      rfl

/-- Any query can be given to the program that takes queries apart. If the query is accepted and the
configuration has a reference date, the program succeeds, and when the program that builds a query
reads the output on its standard input, at whatever time, it shows the query that is written from
the parts, or it fails with them and shows nothing. -/
theorem run_build_of_run_parse {c : Config} {d : Date} {q : Text} {ps : List Part}
    (hd : c.referenceDate = some d) (hq : Query.parse q = .ok ps) :
    Command.ofArguments ["parse".toList, "--".toList, q] = .ok (.parse q) ∧
    ∀ (w w' : Surroundings) (s s' : Store) (args : List Text),
      (s.load w.idna).1 = .ok c → (s'.load w'.idna).1 = .ok c →
      Command.ofArguments args = .ok (.parse q) →
      (w'.sources (s'.load w'.idna).2).input = .ok (w.run args s).1.output.utf8 →
      (w.run args s).1.code = 0 ∧
      ((∃ t, (Engine.ofConfig w.clock c).build ps = .ok t ∧
          (w'.run ["build".toList, "--json".toList, "-".toList] s').1.code = 0 ∧
          (w'.run ["build".toList, "--json".toList, "-".toList] s').1.output = asLine t) ∨
        ∃ e, (Engine.ofConfig w.clock c).build ps = .error e ∧
          (w'.run ["build".toList, "--json".toList, "-".toList] s').1.code = 1 ∧
          (w'.run ["build".toList, "--json".toList, "-".toList] s').1.output = []) := by
  refine ⟨Command.ofArguments_parse q, fun w w' s s' args hs hs' hargs hinput => ?_⟩
  have hparse : (w.run args s).1 = ⟨0, asLine (Part.listJson ps).pretty, []⟩ := by
    rw [run_of_load w hargs hs, Command.run, Command.shown, hq]
    rfl
  have hclock : Engine.ofConfig w'.clock c = Engine.ofConfig w.clock c := by
    rw [Engine.ofConfig, Engine.ofConfig, hd]
    rfl
  have hparts : (w'.sources (s'.load w'.idna).2).parts .input =
      (Part.throughForm ps).mapError .query := by
    rw [hparse] at hinput
    rw [Sources.parts_input hinput, asLine,
      Part.parts_pretty_listJson ps (List.forall_mem_singleton.mpr rfl)]
  have hbuild : (w'.run ["build".toList, "--json".toList, "-".toList] s').1 =
      Outcome.ofResult (((Part.throughForm ps).mapError .query).bind
        (Command.built (Engine.ofConfig w.clock c))) := by
    rw [run_of_load w' Command.ofArguments_build_input hs', Command.run, hparts, hclock]
  refine ⟨by rw [hparse], ?_⟩
  rw [hbuild]
  obtain ⟨hcode, houtput⟩ := Outcome.ofResult_built_throughForm (Engine.ofConfig w.clock c) ps
  rw [hcode, houtput]
  exact Outcome.ofResult_built _ ps

/-- A query with a quotation mark, an open range and a text for a date comes back in canonical
order, also where the configuration has been upgraded in between and the day has changed; one
without a site behind its operator does not. -/
theorem run_build_of_run_parse_open_range :
    let d : Date := ⟨2024, 3, 5, by decide⟩
    let c : Config := ⟨12, defaultSearchUrl, some d⟩
    let s : Store := .file (Text.utf8 "reference_date: 2024-03-05\n".toList)
    let args (q : Text) : List Text := ["parse".toList, q]
    let q : Text := "after:soon 9.. \"rust\\ site:lever.co".toList
    let ps : List Part := [.text "\"rust\\".toList, .salary ⟨some 9, none⟩, .site "lever.co".toList,
      .after "soon".toList]
    let lacking : Text := "rust site:".toList
    let idna : Url.Idna := .ofTable []
    let w : Surroundings := ⟨"c".toList, d, idna, fun _ => ⟨.ok [], fun _ => .error .missing⟩⟩
    let behind (q : Text) : Surroundings := ⟨"c".toList, ⟨2024, 3, 6, by decide⟩, idna, fun _ =>
      ⟨.ok (w.run (args q) s).1.output.utf8, fun _ => .error .missing⟩⟩
    let upgraded : Store := (s.load idna).2
    (c.referenceDate = some d ∧ (s.load idna).1 = .ok c ∧ (upgraded.load idna).1 = .ok c) ∧
    (Query.parse q = .ok ps ∧ Command.ofArguments (args q) = .ok (.parse q) ∧
      (w.run (args q) s).1.code = 0 ∧
      ((behind q).run ["build".toList, "--json".toList, "-".toList] upgraded).1.code = 0 ∧
      ((behind q).run ["build".toList, "--json".toList, "-".toList] upgraded).1.output =
        asLine "\"rust\\ 9.. site:lever.co after:soon".toList) ∧
    (Query.parse lacking = .ok [.text "rust".toList, .site []] ∧
      Command.ofArguments (args lacking) = .ok (.parse lacking) ∧
      (w.run (args lacking) s).1.code = 0 ∧
      ((behind lacking).run ["build".toList, "--json".toList, "-".toList] upgraded).1.code = 1 ∧
      ((behind lacking).run ["build".toList, "--json".toList, "-".toList] upgraded).1.output =
        []) := by
  intro d c s args q ps lacking idna w behind upgraded
  have hs : (s.load idna).1 = .ok c := by decide +kernel
  have hs' : (upgraded.load idna).1 = .ok c := by decide +kernel
  have hq : Query.parse q = .ok ps := Query.parse_eq_ok_iff.mpr
    ⟨[.after "soon".toList, .salary ⟨some 9, none⟩, .text "\"rust\\".toList,
      .site "lever.co".toList], rfl,
      (Part.canonical_eq_of_forall_mem (by decide +kernel) (by decide +kernel)).symm⟩
  have hargs : Command.ofArguments (args q) = .ok (.parse q) := by decide +kernel
  have hb : (Engine.ofConfig d c).build ps =
      .ok "\"rust\\ 9.. site:lever.co after:soon".toList := by decide +kernel
  have hql : Query.parse lacking = .ok [.text "rust".toList, .site []] :=
    Query.parse_eq_ok_iff.mpr ⟨[.text "rust".toList, .site []], rfl,
      (Part.canonical_eq_of_forall_mem (by decide +kernel) (by decide +kernel)).symm⟩
  have hbl : (Engine.ofConfig d c).build [.text "rust".toList, .site []] =
      .error (.invalidInput .site .empty) := by decide +kernel
  have hargsl : Command.ofArguments (args lacking) = .ok (.parse lacking) := by decide +kernel
  have hinput (q : Text) : ((behind q).sources (upgraded.load idna).2).input =
      .ok (w.run (args q) s).1.output.utf8 := rfl
  refine ⟨⟨rfl, hs, hs'⟩, ⟨hq, hargs, ?_⟩, hql, hargsl, ?_⟩
  · obtain ⟨hcode, ⟨t, ht, hbuilt, hshown⟩ | ⟨e, he, -⟩⟩ := (run_build_of_run_parse rfl hq).2
      w (behind q) s upgraded (args q) hs hs' hargs (hinput q)
    · obtain rfl := Except.ok.inj (ht.symm.trans hb)
      exact ⟨hcode, hbuilt, hshown⟩
    · cases he.symm.trans hb
  · obtain ⟨hcode, ⟨t, ht, -⟩ | ⟨e, -, hbuilt, hshown⟩⟩ := (run_build_of_run_parse rfl hql).2
      w (behind lacking) s upgraded (args lacking) hs hs' hargsl (hinput lacking)
    · cases ht.symm.trans hbl
    · exact ⟨hcode, hbuilt, hshown⟩

end Surroundings

end JobSearch
