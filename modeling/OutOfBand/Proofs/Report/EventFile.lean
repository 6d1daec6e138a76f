import OutOfBand.Proofs.Json.Reading
import OutOfBand.Proofs.Report.Voices
import OutOfBand.Proofs.Value.Entries
import OutOfBand.Text.Lines

namespace OutOfBand

/-- Lines that hold no line feed are found again in their text; nothing follows the last one. -/
theorem splitLines_linesText {ls : List String} (h : ∀ l ∈ ls, '\n' ∉ l.toList) :
    splitLines (linesText ls) = ls ++ [""] := by
  induction ls with
  | nil => rfl
  | cons l ls ih =>
    obtain ⟨hl, hls⟩ := List.forall_mem_cons.mp h
    have htext : (linesText (l :: ls)).toList = l.toList ++ '\n' :: (linesText ls).toList := by
      simp [linesText]
    rw [splitLines, htext, splitAt_append hl, List.map_cons, String.ofList_toList, ← splitLines,
      ih hls, List.cons_append]

theorem Entries.get?_map_entry {ms : List (String × Value)} (h : (ms.map Prod.fst).Nodup)
    {k : String} {v : Value} : Entries.get? (ms.map Json.entry) k = some v ↔ (k, v) ∈ ms := by
  induction ms with
  | nil => simp [Entries.get?, Entries.find?]
  | cons m ms ih =>
    obtain ⟨name, w⟩ := m
    obtain ⟨hm, hms⟩ := List.nodup_cons.mp h
    rw [List.map_cons, Json.entry, Entries.get?_cons, List.mem_cons, Prod.mk.injEq]
    simp only [Value.str_alike_iff, Value.str.injEq]
    by_cases hk : name = k
    · have hlater : (k, v) ∉ ms := fun hv => hm (List.mem_map.mpr ⟨(k, v), hv, hk.symm⟩)
      simp [hk, hlater, eq_comm]
    · simpa [hk, Ne.symm hk] using ih hms

/-- The hosts that something happened to. -/
def Happening.hosts : Happening → List Value
  | .ready _ hosts => hosts
  | h => h.host?.toList

namespace Event

/-- The hosts have names that are texts. -/
def NamesHosts (e : Event) : Prop := ∀ h ∈ e.happening.hosts, ∃ s, h = .str s

/-- The members of the object that stands for an event: its name, then every field with a value. -/
def members (e : Event) : List (String × Value) := ("type", .str e.name) :: e.present

theorem isPresent_iff {f : String × Value} : isPresent f = true ↔ f.2 ≠ .null := by
  obtain ⟨k, v⟩ := f
  cases v <;> simp [isPresent]

/-- No two fields have one name, and none is called as the member for the event's name is. -/
theorem nodup_fields (e : Event) : ("type" :: e.fields.map Prod.fst).Nodup := by
  obtain ⟨stamp, happening⟩ := e
  cases happening <;> simp [Event.fields, Stamp.times, Stamp.places, Happening.fields]

theorem nodup_members (e : Event) : (e.members.map Prod.fst).Nodup := by
  refine e.nodup_fields.sublist ?_
  rw [members, List.map_cons]
  exact (List.filter_sublist.map _).cons_cons _

theorem carried_optional (s : Option String) : Json.Carried (Happening.optional s) := by
  cases s with
  | none => exact .null
  | some s => exact .str s

theorem carried_stamp (s : Stamp) : ∀ f ∈ s.times ++ s.places, Json.Carried f.2 := by
  simp [Stamp.times, Stamp.places, Json.Carried.str, carried_optional]

theorem carried_fields {e : Event} (h : e.NamesHosts) : ∀ f ∈ e.fields, Json.Carried f.2 := by
  obtain ⟨stamp, happening⟩ := e
  have hhosts : ∀ v ∈ happening.hosts, Json.Carried v := by
    intro v hv
    obtain ⟨s, rfl⟩ := h v hv
    exact .str s
  refine List.forall_mem_append.mpr ⟨carried_stamp stamp, ?_⟩
  cases happening with
  | plain => simp [Happening.fields]
  | ready type hosts =>
    have hlist : Json.Carried (.list hosts) := .list hhosts
    simp [Happening.fields, hlist, Json.Carried.str]
  | started host action | failed host action error =>
    have hhost : Json.Carried host := hhosts host (by simp [Happening.hosts, Happening.host?])
    simp [Happening.fields, hhost, Json.Carried.str]
  | succeeded host action ms result =>
    have hhost : Json.Carried host := hhosts host (by simp [Happening.hosts, Happening.host?])
    simp [Happening.fields, hhost, Json.Carried.str, Json.Carried.int, carried_optional]
  | summary action ok failed skipped =>
    simp [Happening.fields, Json.Carried.str, Json.Carried.int]

/-- The object that stands for an event in a file. -/
def object (e : Event) : Value := .map (e.members.map Json.entry)

/-- What the line of an event looks like, what reading it gives, and what is found there. -/
structure WrittenAs (e : Event) (line : String) : Prop where
  plain : PlainAscii line.toList
  reads : Json.read? line = some e.object
  get?_iff : ∀ k v, e.object.get? k = some v ↔
    k = "type" ∧ v = .str e.name ∨ (k, v) ∈ e.fields ∧ v ≠ .null

theorem exists_writtenAs {e : Event} (h : e.NamesHosts) :
    ∃ line, EventLine.json? e = some line ∧ e.WrittenAs line := by
  have hcarried : Json.Carried e.object := by
    refine .map e.nodup_members fun m hm => ?_
    rcases List.mem_cons.mp hm with rfl | hm
    · exact .str e.name
    · exact carried_fields h m (List.mem_of_mem_filter hm)
  obtain ⟨line, hline, hspells⟩ := hcarried.exists_spelling
  refine ⟨line, hline, hspells.plain, Json.read?_of_spells hspells, fun k v => ?_⟩
  rw [object, Value.get?, Entries.get?_map_entry e.nodup_members, members, List.mem_cons,
    Prod.mk.injEq, present, List.mem_filter, isPresent_iff]

end Event

namespace Observer

theorem file_tell {e : Event} {line : String} (h : EventLine.json? e = some line)
    (earlier : List Event) : Observer.file.tell earlier e = [.record line] := by
  simp [Observer.tell, Observer.file, Observer.ofWriter, h]

theorem exists_stream_file (earlier : List Event) {events : List Event}
    (h : ∀ e ∈ events, e.NamesHosts) :
    ∃ lines : List String, Observer.file.stream earlier events = lines.map Output.record ∧
      List.Forall₂ Event.WrittenAs events lines := by
  induction events generalizing earlier with
  | nil => exact ⟨[], rfl, .nil⟩
  | cons e es ih =>
    obtain ⟨he, hes⟩ := List.forall_mem_cons.mp h
    obtain ⟨line, hline, hwritten⟩ := Event.exists_writtenAs he
    obtain ⟨lines, hlines, hall⟩ := ih (earlier ++ [e]) hes
    refine ⟨line :: lines, ?_, .cons hwritten hall⟩
    rw [stream_cons, stream_singleton, file_tell hline, hlines, List.map_cons,
      List.singleton_append]

/-- The event file reads back: as many lines as events, each of which stands on a line of its own
and is read as its event. -/
theorem file_reads_back (earlier : List Event) {events : List Event}
    (h : ∀ e ∈ events, e.NamesHosts) :
    ∃ lines : List String, Observer.file.stream earlier events = lines.map Output.record ∧
      splitLines (linesText lines) = lines ++ [""] ∧
      List.Forall₂ Event.WrittenAs events lines := by
  obtain ⟨lines, hlines, hall⟩ := exists_stream_file earlier h
  refine ⟨lines, hlines, splitLines_linesText fun line hline => ?_, hall⟩
  obtain ⟨e, -, hwritten⟩ := exists_of_mem_right hall hline
  exact hwritten.plain.not_mem (by decide)

/-- Events whose texts hold quotes, a backslash, line breaks and a pair of surrogates. -/
def Sample.oddEvents : List Event :=
  let stamp : Stamp := ⟨"2024-05-01T08:00:00Z", "run\r\n1", none, some "phase\u2028"⟩
  [⟨stamp, .ready "redfish" [.str "rack \"a\"", .str "\\😀"]⟩,
    ⟨stamp, .succeeded (.str "\\😀") "power_on" (-3) none⟩]

theorem file_reads_back_odd_texts :
    (∀ e ∈ Sample.oddEvents, e.NamesHosts) ∧
      ∃ lines : List String, Observer.file.stream [] Sample.oddEvents = lines.map Output.record ∧
        splitLines (linesText lines) = lines ++ [""] ∧
        List.Forall₂ Event.WrittenAs Sample.oddEvents lines := by
  have hhosts : ∀ e ∈ Sample.oddEvents, e.NamesHosts := by
    simp [Sample.oddEvents, Event.NamesHosts, Happening.hosts, Happening.host?]
  exact ⟨hhosts, file_reads_back [] hhosts⟩

end Observer

end OutOfBand
