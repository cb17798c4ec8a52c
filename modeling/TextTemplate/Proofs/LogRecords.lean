import TextTemplate.Log.Trace

/-!
# What is in the log of a parse

The log of a parse interleaves the records of reading tokens with those of the notices on them.
Whatever the order is, every notice has its record, and a record on the tree or a warning is always
that of a notice.
-/

namespace TextTemplate.Expression

open Markup

/-- Notices are given in front of the next token or behind it, and all of them are given. -/
theorem mem_noticeRecords {notices : List Notice} {record : Log.Record} :
    record ∈ (notices.filter Log.comesFirst).map Log.noticeRecord ∨
        record ∈ (notices.filter (!Log.comesFirst ·)).map Log.noticeRecord ↔
      ∃ notice ∈ notices, Log.noticeRecord notice = record := by
  simp only [List.mem_map, List.mem_filter, Bool.not_eq_true']
  constructor
  · rintro (⟨notice, ⟨member, -⟩, same⟩ | ⟨notice, ⟨member, -⟩, same⟩)
    · exact ⟨notice, member, same⟩
    · exact ⟨notice, member, same⟩
  · rintro ⟨notice, member, same⟩
    cases order : Log.comesFirst notice with
    | true => exact .inl ⟨notice, ⟨member, order⟩, same⟩
    | false => exact .inr ⟨notice, ⟨member, order⟩, same⟩

/-- Assembling tokens that were read leaves the records of the notices on them, and those of
reading all of them but the first. -/
theorem mem_assemblyRecords {limit : Int} {state : State} {read : List (Reading Token)}
    {record : Log.Record} :
    record ∈ Log.assemblyRecords limit state read ↔
      (∃ notice ∈ State.allNotices limit state (read.map (·.value)),
        Log.noticeRecord notice = record) ∨
        ∃ reading ∈ read.tail, record ∈ Log.readingRecords reading := by
  induction read generalizing state with
  | nil => simp [Log.assemblyRecords, State.allNotices]
  | cons reading more ih =>
    have next : (∃ reading ∈ more, record ∈ Log.readingRecords reading) ↔
        record ∈ more.head?.elim [] Log.readingRecords ∨
          ∃ reading ∈ more.tail, record ∈ Log.readingRecords reading := by
      cases more <;> simp
    have own := @mem_noticeRecords (state.notices limit reading.value) record
    simp only [Log.assemblyRecords, List.map_cons, State.allNotices, List.tail_cons,
      List.mem_append, or_and_right, exists_or, ih, next, ← own]
    simp only [or_assoc, or_left_comm]

/-- Reading leaves nothing on the tree and no warning. -/
theorem of_mem_readingRecords {α : Type} {reading : Reading α} {record : Log.Record}
    (recorded : record ∈ Log.readingRecords reading) :
    record.channel ≠ .tree ∧ record.level ≠ .warning := by
  obtain ⟨message, -, rfl⟩ := List.mem_map.mp recorded
  exact ⟨nofun, nofun⟩

/-- Among the records of notices, those of the notices given first and those of the others leave
the warnings in the order of the notices. -/
theorem warnings_noticeRecords (notices : List Notice) :
    ((notices.filter Log.comesFirst).map Log.noticeRecord).filter (·.level = .warning) ++
        ((notices.filter (!Log.comesFirst ·)).map Log.noticeRecord).filter (·.level = .warning) =
      (notices.filter (Log.noticeLevel · = .warning)).map Log.noticeRecord := by
  induction notices with
  | nil => rfl
  | cons notice more ih =>
    -- A notice that is a warning comes first, and the other notices are no warnings.
    cases notice with
    | tooDeep limit opener => exact congrArg (Log.noticeRecord (.tooDeep limit opener) :: ·) ih
    | unexpected _ | unclosedLoop _ _ | unclosedChoice _ _ => exact ih

/-- Reading leaves no warnings. -/
theorem warnings_readingRecords {α : Type} (reading : Reading α) :
    (Log.readingRecords reading).filter (·.level = .warning) = [] := by
  rw [List.filter_eq_nil_iff]
  intro record recorded
  simpa using (of_mem_readingRecords recorded).2

/-- The warnings of assembling tokens that were read are those among the notices on them, in
order. -/
theorem warnings_assemblyRecords (limit : Int) (state : State) (read : List (Reading Token)) :
    (Log.assemblyRecords limit state read).filter (·.level = .warning) =
      ((State.allNotices limit state (read.map (·.value))).filter
        (Log.noticeLevel · = .warning)).map Log.noticeRecord := by
  induction read generalizing state with
  | nil => rfl
  | cons reading more ih =>
    have next : (more.head?.elim [] Log.readingRecords).filter (·.level = .warning) = [] := by
      cases more with
      | nil => rfl
      | cons other _ => exact warnings_readingRecords other
    rw [Log.assemblyRecords, List.filter_append, List.filter_append, List.filter_append, next,
      List.append_nil, warnings_noticeRecords, ih, List.map_cons, State.allNotices,
      List.filter_append, List.map_append]

/-- Every notice on a text has its record in the log. -/
theorem noticeRecord_mem_parseRecords {limit : Int} {text : String} {notice : Notice}
    (noticed : notice ∈ parseNotices limit text) :
    Log.noticeRecord notice ∈ Log.parseRecords limit text := by
  have recorded : Log.noticeRecord notice ∈ Log.assemblyRecords limit .initial (readings text) :=
    mem_assemblyRecords.mpr (.inl ⟨notice, noticed, rfl⟩)
  rw [Log.parseRecords]
  exact List.mem_append_left _ (List.mem_append_right _ recorded)

/-- A record of a parse is that of a notice on the text, or neither on the tree nor a warning. -/
theorem of_mem_parseRecords {limit : Int} {text : String} {record : Log.Record}
    (recorded : record ∈ Log.parseRecords limit text) :
    (∃ notice ∈ parseNotices limit text, Log.noticeRecord notice = record) ∨
      record.channel ≠ .tree ∧ record.level ≠ .warning := by
  rw [Log.parseRecords, List.mem_append, List.mem_append] at recorded
  rcases recorded with (first | assembled) | last
  · cases found : readings text with
    | nil => simp [found] at first
    | cons reading more =>
      rw [found] at first
      exact .inr (of_mem_readingRecords first)
  · rcases mem_assemblyRecords.mp assembled with noticed | ⟨reading, -, inside⟩
    · exact .inl noticed
    · exact .inr (of_mem_readingRecords inside)
  · obtain rfl := List.mem_singleton.mp last
    exact .inr ⟨nofun, nofun⟩

/-- A parse leaves records on the tree exactly when there are notices on the text. -/
theorem parseRecords_silent_iff (limit : Int) (text : String) :
    (∀ record ∈ Log.parseRecords limit text, record.channel ≠ .tree) ↔
      parseNotices limit text = [] := by
  constructor
  · intro silent
    rw [List.eq_nil_iff_forall_not_mem]
    intro notice noticed
    exact silent _ (noticeRecord_mem_parseRecords noticed) rfl
  · intro nothing record recorded
    rcases of_mem_parseRecords recorded with ⟨notice, noticed, -⟩ | ⟨elsewhere, -⟩
    · rw [nothing] at noticed
      contradiction
    · exact elsewhere

/-- A parse logs a warning exactly when there is one among the notices on the text. -/
theorem parseRecords_unwarned_iff (limit : Int) (text : String) :
    (∀ record ∈ Log.parseRecords limit text, record.level ≠ .warning) ↔
      ∀ notice ∈ parseNotices limit text, Log.noticeLevel notice ≠ .warning := by
  constructor
  · intro unwarned notice noticed
    exact unwarned _ (noticeRecord_mem_parseRecords noticed)
  · intro calm record recorded
    rcases of_mem_parseRecords recorded with ⟨notice, noticed, same⟩ | ⟨-, harmless⟩
    · rw [← same]
      exact calm notice noticed
    · exact harmless

/-- The warnings in the log of a parse are those among the notices on the text, in order. -/
theorem parseRecords_warnings (limit : Int) (text : String) :
    (Log.parseRecords limit text).filter (·.level = .warning) =
      ((parseNotices limit text).filter (Log.noticeLevel · = .warning)).map Log.noticeRecord := by
  have first : ((readings text).head?.elim [] Log.readingRecords).filter (·.level = .warning) =
      [] := by
    cases readings text with
    | nil => rfl
    | cons reading _ => exact warnings_readingRecords reading
  rw [Log.parseRecords, List.filter_append, List.filter_append, first, List.nil_append,
    warnings_assemblyRecords]
  simp [parseNotices, tokenize]

end TextTemplate.Expression
