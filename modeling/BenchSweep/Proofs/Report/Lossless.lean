import BenchSweep.Proofs.Json.Reading
import BenchSweep.Proofs.Report.Timestamps
import BenchSweep.Report

/-!
# What a report says as JSON

* `Span.Dated` : both clock readings lie in years of four digits.
* `Report.object_injective` : the fields of a report tell all of it.
* `Report.json_lossless` : the JSON form of a report is read back to its fields, and no other report
  has it.
-/

namespace BenchSweep

/-- Do both clock readings lie in the years 0 to 9999? -/
def Span.Dated (span : Span) : Prop := span.started.Dated ∧ span.finished.Dated

theorem Instant.rfc3339_injective {i j : Instant} (hi : i.Dated) (hj : j.Dated)
    (h : i.rfc3339 = j.rfc3339) : i = j := by
  have hread := ofRfc3339?_rfc3339 hi
  rw [h, ofRfc3339?_rfc3339 hj] at hread
  exact (Option.some.inj hread).symm

theorem Path.text_injective : Function.Injective Path.text := by
  rintro ⟨text⟩ ⟨text'⟩ rfl
  rfl

theorem Json.Value.data_injective : Function.Injective Json.Value.data := by
  intro v w h
  cases v <;> cases w
  case string.string s t => exact congrArg _ (Data.string.inj h)
  case number.number n m => exact congrArg _ (Rat.natCast_inj.1 (Data.number.inj h))
  case strings.strings items others =>
    have hitems := (List.map_inj_right fun _ _ => Data.string.inj).1 (Data.array.inj h)
    exact congrArg _ hitems
  all_goals cases h

namespace Report

variable {r r' : Report}

/-- The fields tell all of a report. -/
theorem object_injective (h : r.span.Dated) (h' : r'.span.Dated) (heq : r.object = r'.object) :
    r = r' := by
  simp only [object, List.cons.injEq, Prod.mk.injEq, Json.Value.string.injEq,
    Json.Value.number.injEq, Json.Value.strings.injEq, true_and, and_true] at heq
  obtain ⟨hbenchmark, hdirectory, hiterations, hallocators, hthreads, hstarted, hfinished, hlogs,
    hfailures⟩ := heq
  have hdirectory := Path.text_injective hdirectory
  have hlogs := (List.map_inj_right fun _ _ heq => Path.text_injective heq).1 hlogs
  have hstarted := Instant.rfc3339_injective h.1 h'.1 hstarted
  have hfinished := Instant.rfc3339_injective h.2 h'.2 hfinished
  obtain ⟨benchmark, directory, iterations, allocators, maxThreads, ⟨started, finished⟩, logs,
    failures⟩ := r
  subst hbenchmark hdirectory hiterations hallocators hthreads hstarted hfinished hlogs hfailures
  rfl

/-- A report is read back from its JSON form. -/
theorem read?_json (r : Report) :
    Json.read? r.json = some (.object (r.object.map fun (name, value) => (name, value.data))) :=
  Json.read?_print r.object

theorem json_injective (h : r.span.Dated) (h' : r'.span.Dated) (heq : r.json = r'.json) :
    r = r' := by
  have hread := read?_json r
  rw [heq, read?_json r'] at hread
  have hfields := Json.Data.object.inj (Option.some.inj hread)
  refine object_injective h h' ((List.map_inj_right ?_).1 hfields.symm)
  rintro ⟨name, value⟩ ⟨name', value'⟩ hfield
  obtain ⟨hname, hvalue⟩ := Prod.mk.inj hfield
  rw [hname, Json.Value.data_injective hvalue]

/-- The JSON form of a report is one object on lines of its own, of which the last ends the text.
Its nine fields are the report's own, the clock readings as timestamps of universal time that are
read back to the nanosecond, and no other report has this form. -/
theorem json_lossless (r : Report) (h : r.span.Dated) :
    (∃ body, r.json.toList = body ++ ['}', '\n']) ∧
      Json.read? r.json = some (.object
        [("benchmark", .string r.benchmark),
          ("benchmark_dir", .string r.directory.text),
          ("iterations", .number r.iterations),
          ("allocators", .array (r.allocators.map .string)),
          ("max_threads", .number r.maxThreads),
          ("started_at", .string r.span.started.rfc3339),
          ("finished_at", .string r.span.finished.rfc3339),
          ("result_files", .array ((r.logs.map Path.text).map .string)),
          ("failures", .number r.failures)]) ∧
      (∀ i ∈ [r.span.started, r.span.finished],
        i.rfc3339.toList.getLast? = some 'Z' ∧ Instant.ofRfc3339? i.rfc3339 = some i) ∧
      ∀ r' : Report, r'.span.Dated → r'.json = r.json → r' = r := by
  refine ⟨?_, read?_json r, ?_, fun r' h' => json_injective h' h⟩
  · refine ⟨'{' :: '\n' :: Json.joinLines (r.object.map Json.printField) ++ ['\n'], ?_⟩
    rw [json, String.toList_ofList, Json.print, List.append_assoc, List.append_assoc]
    rfl
  · intro i hi
    refine ⟨i.getLast?_rfc3339, Instant.ofRfc3339?_rfc3339 ?_⟩
    rcases List.mem_cons.1 hi with rfl | hi
    · exact h.1
    · rw [List.mem_singleton.1 hi]
      exact h.2

/-- A report on a sweep that started in a leap second and ran nothing. -/
def leapReport : Report where
  benchmark := "a \"quoted\" \\name\n\x00😀"
  directory := ⟨"benches/a"⟩
  iterations := 0
  allocators := []
  maxThreads := 4294967295
  span := ⟨⟨1483228799, 1250000000⟩, ⟨1483228802, 0⟩⟩
  logs := []
  failures := 0

/-- Its form is read back, and so are its clock readings. -/
theorem json_lossless_leapSecond :
    leapReport.span.Dated ∧
      Json.read? leapReport.json = some (.object
        [("benchmark", .string "a \"quoted\" \\name\n\x00😀"),
          ("benchmark_dir", .string "benches/a"), ("iterations", .number 0),
          ("allocators", .array []), ("max_threads", .number 4294967295),
          ("started_at", .string "2016-12-31T23:59:60.250Z"),
          ("finished_at", .string "2017-01-01T00:00:02Z"), ("result_files", .array []),
          ("failures", .number 0)]) ∧
      Instant.ofRfc3339? leapReport.span.started.rfc3339 = some leapReport.span.started := by
  have hstarted : leapReport.span.started.Dated := ⟨by decide, by decide, by decide, by decide⟩
  have hfinished : leapReport.span.finished.Dated := ⟨by decide, by decide, by decide, by decide⟩
  obtain ⟨-, hread, hinstants, -⟩ := json_lossless leapReport ⟨hstarted, hfinished⟩
  exact ⟨⟨hstarted, hfinished⟩, hread, (hinstants _ List.mem_cons_self).2⟩

end Report

end BenchSweep
