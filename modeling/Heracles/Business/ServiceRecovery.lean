import Heracles.Business.ServiceNames

/-!
Services recovered from the names of directories.

The directory of a service is named `prefix__service__events_YYYYMM`, and
`select_services` takes a name apart by its length: it drops as many bytes as the
prefix and two more have, and the last fifteen. That the dropped bytes are the
prefix is checked, that they are followed by `__` is not.
`services_recovered_iff`: the services created under a prefix come back, and no
others, exactly when all of them can be listed (`Recoverable.own`) and no
directory of another prefix can be read as one of this prefix
(`Recoverable.foreign`).
-/

namespace Heracles.Business.StoreLevelDB

open Heracles.Base

/-! ### Names -/

/-- Six digits of a month, a year of at most four digits. -/
structure CalendarMonth (env : LeveldbEnv) : Prop where
  year : 0 ≤ ((env.localtime env.now).tmYear + 1900).toInt ∧
    ((env.localtime env.now).tmYear + 1900).toInt ≤ 9999
  month : 0 ≤ ((env.localtime env.now).tmMon + 1).toInt ∧
    ((env.localtime env.now).tmMon + 1).toInt ≤ 12

theorem length_decimal_le {n w : Nat} (wide : 0 < w) (small : n < 10 ^ w) :
    (decimal n).length ≤ w := by
  rcases Nat.eq_zero_or_pos n with rfl | positive
  · rw [decimal_of_lt (by omega)]
    exact wide
  · have lower := Nat.pow_log_le_self 10 positive.ne'
    have upper := Nat.lt_pow_succ_log_self (by omega : 1 < 10) n
    rw [length_decimal lower upper]
    exact Nat.log_lt_of_lt_pow positive.ne' small

theorem length_paddedDecimal {w : Nat} {n : Int} (wide : 0 < w) (nonneg : 0 ≤ n)
    (small : n.natAbs < 10 ^ w) : (paddedDecimal w n).length = w := by
  have short := length_decimal_le wide small
  rw [paddedDecimal, if_neg (not_lt.mpr nonneg), List.length_append, List.length_replicate]
  omega

theorem isDigit_of_mem_paddedDecimal {w : Nat} {n : Int} (nonneg : 0 ≤ n) {c : UInt8}
    (member : c ∈ paddedDecimal w n) : isDigit c = true := by
  rw [paddedDecimal, if_neg (not_lt.mpr nonneg)] at member
  rcases List.mem_append.mp member with zero | digit
  · rw [List.eq_of_mem_replicate zero]
    decide
  · exact isDigit_of_mem_decimal digit

theorem CalendarMonth.length {env : LeveldbEnv} (ok : CalendarMonth env) : env.month.length = 6 := by
  have year := ok.year
  have month := ok.month
  rw [LeveldbEnv.month, getTableSuffix, List.length_append,
    length_paddedDecimal (by omega) year.1 (by omega),
    length_paddedDecimal (by omega) month.1 (by omega)]

theorem CalendarMonth.digits {env : LeveldbEnv} (ok : CalendarMonth env) :
    ∀ c ∈ env.month, isDigit c = true := by
  intro c member
  rcases List.mem_append.mp member with year | month
  · exact isDigit_of_mem_paddedDecimal ok.year.1 year
  · exact isDigit_of_mem_paddedDecimal ok.month.1 month

theorem CalendarMonth.not_mem {env : LeveldbEnv} (ok : CalendarMonth env) {c : UInt8}
    (other : isDigit c = false) : c ∉ env.month := by
  intro member
  rw [ok.digits c member] at other
  cases other

/-- The name of a directory is read as the service between the prefix with two more
bytes and the last fifteen. -/
theorem serviceOf_eq_some {tablePrefix name service : Bytes} (given : tablePrefix ≠ []) :
    serviceOf tablePrefix name = some service ↔ tablePrefix.head? ≠ some 46 ∧
      ∃ separator ending, name = tablePrefix ++ separator ++ service ++ ending ∧
        separator.length = 2 ∧ ending.length = 15 ∧ service ≠ [] := by
  have head (rest : Bytes) : (tablePrefix ++ rest).head? = tablePrefix.head? :=
    List.head?_append_of_ne_nil _ given
  unfold serviceOf
  constructor
  · intro read
    split at read
    · cases read
    · rename_i visible
      split at read
      · cases read
      · rename_i begins
        split at read
        · rename_i long
          obtain ⟨rest, rfl⟩ := not_not.mp begins
          obtain rfl := Option.some.inj read
          rw [head] at visible
          rw [List.length_append] at long
          have dropped : (tablePrefix ++ rest).drop (tablePrefix.length + 2) = rest.drop 2 := by
            rw [List.drop_append, List.drop_eq_nil_of_le (by omega), List.nil_append,
              Nat.add_sub_cancel_left]
          rw [dropped]
          refine ⟨visible, rest.take 2, (rest.drop 2).drop ((rest.drop 2).length - 15), ?_, ?_, ?_, ?_⟩
          · rw [List.append_assoc, List.append_assoc, List.take_append_drop,
              List.take_append_drop]
          · rw [List.length_take]
            omega
          · rw [List.length_drop, List.length_drop]
            omega
          · refine List.ne_nil_of_length_pos ?_
            rw [List.length_take, List.length_drop]
            omega
        · cases read
  · rintro ⟨visible, separator, ending, rfl, two, fifteen, nonempty⟩
    have some := List.length_pos_of_ne_nil nonempty
    have begins : tablePrefix <+: tablePrefix ++ separator ++ service ++ ending :=
      ⟨separator ++ (service ++ ending), by simp only [List.append_assoc]⟩
    have front : (tablePrefix ++ separator).length = tablePrefix.length + 2 := by
      rw [List.length_append, two]
    have dropped : (tablePrefix ++ separator ++ service ++ ending).drop (tablePrefix.length + 2) =
        service ++ ending := by
      rw [List.append_assoc (tablePrefix ++ separator), ← front, List.drop_left]
    have long : (tablePrefix ++ separator ++ service ++ ending).length >
        tablePrefix.length + 2 + 15 := by
      simp only [List.length_append]
      omega
    have shown : ¬ (tablePrefix ++ separator ++ service ++ ending).head? = .some 46 := by
      rw [List.append_assoc, List.append_assoc, head]
      exact visible
    rw [if_neg shown, if_neg (not_not.mpr begins), if_pos long]
    simp only [dropped]
    rw [List.length_append, fifteen, Nat.add_sub_cancel, List.take_left]

/-! ### Directories -/

/-- A call of `get_leveldb_handler` that creates or opens a directory. -/
structure Creation where
  store : StoreLevelDB
  env : LeveldbEnv
  service : Bytes
  path : Bytes
  made : store.opened env service = some path

/-- The directory of a call of a store with the file path `filepath`, for a service
without `/` and in a year of four digits. Texts of a configuration have no zero. -/
structure Creation.Under (filepath : Bytes) (c : Creation) : Prop where
  filepath : c.store.filepath = filepath
  tablePrefix : 0 ∉ c.store.tablePrefix
  service : 47 ∉ c.service
  calendar : CalendarMonth c.env

/-- The file system lists the paths that lie in `filepath` under their last name:
those that have only a name behind it, and whatever else it resolves there. -/
structure Lists (filepath : Bytes) (dir : StoreDir) : Prop where
  opendirOk : dir.opendirOk = true
  others : dir.others = []
  plain : ∀ name, name ≠ [] → 47 ∉ name → dir.entry (filepath ++ 47 :: name) = some name
  lastName : ∀ path name, dir.entry path = some name →
    (∃ rest, path = filepath ++ 47 :: rest) ∧ ∃ front, path = front ++ 47 :: name ∧ 47 ∉ name

/-- When the directories under a prefix can be told: those created under it are listed
with their whole name, and none created under another prefix is the prefix, two bytes,
the name of no service of the prefix and fifteen bytes. -/
structure Recoverable (dir : StoreDir) (creations : List Creation) (filepath tablePrefix : Bytes) :
    Prop where
  own : ∀ c ∈ creations, c.store.tablePrefix = tablePrefix →
    tablePrefix.head? ≠ some 46 ∧ 47 ∉ tablePrefix ∧ 0 ∉ c.service ∧
      filepath.length + tablePrefix.length + c.service.length + 18 < 4096
  foreign : ∀ c ∈ creations, c.store.tablePrefix ≠ tablePrefix → tablePrefix.head? ≠ some 46 →
    ∀ separator service ending, separator.length = 2 → ending.length = 15 → service ≠ [] →
      dir.entry c.path = some (tablePrefix ++ separator ++ service ++ ending) →
        ∃ own ∈ creations, own.store.tablePrefix = tablePrefix ∧ own.service = service

section Listing

variable {filepath : Bytes} {c : Creation}

/-- The name of the directory before the path is cut. -/
def Creation.name (c : Creation) : Bytes :=
  c.store.tablePrefix ++ bytes "__" ++ cstr c.service ++ (bytes "__events_" ++ c.env.month)

theorem Creation.path_eq (c : Creation) (under : c.Under filepath) (plain : 0 ∉ filepath) :
    c.path = snprintf 4096 (filepath ++ 47 :: c.name) ∧ c.service ≠ [] := by
  have made := c.made
  unfold opened at made
  split at made
  · cases made
  · rename_i named
    split at made
    · cases made
    · split at made
      · obtain path := Option.some.inj made
        have slash : bytes "/" = [47] := by decide
        have digits : cstr c.env.month = c.env.month :=
          cstr_eq_self (under.calendar.not_mem (by decide))
        rw [fullpath, under.filepath, cstr_eq_self plain, cstr_eq_self under.tablePrefix, digits,
          slash] at path
        refine ⟨?_, named⟩
        rw [← path, Creation.name]
        simp only [List.append_assoc, List.cons_append, List.nil_append]
      · cases made

/-- The last name of a path below `filepath` is no longer than what follows it. -/
theorem length_lastName {dir : StoreDir} (lists : Lists filepath dir) {path name : Bytes}
    (listed : dir.entry path = some name) : filepath.length + 1 + name.length ≤ path.length := by
  obtain ⟨⟨rest, below⟩, front, last, plain⟩ := lists.lastName path name listed
  have whole := congrArg List.length below
  rw [List.length_append, List.length_cons] at whole
  by_contra long
  -- the slash behind `filepath` would be inside the name
  have inside : 47 :: rest <:+ name := by
    refine List.suffix_of_suffix_length_le ⟨filepath, below.symm⟩ ⟨front ++ [47], ?_⟩ ?_
    · rw [last, List.append_assoc, List.singleton_append]
    · rw [List.length_cons]
      omega
  exact plain (inside.subset List.mem_cons_self)

theorem not_mem_path (plain : 0 ∉ filepath) (under : c.Under filepath) : 0 ∉ c.path := by
  intro member
  rw [(c.path_eq under plain).1] at member
  have whole := (List.take_sublist _ _).subset member
  have separator : (0 : UInt8) ∉ bytes "__" := by decide
  have events : (0 : UInt8) ∉ bytes "__events_" := by decide
  simp only [Creation.name, List.mem_append, List.mem_cons, plain, under.tablePrefix, separator,
    zero_not_mem_cstr, events, under.calendar.not_mem (c := 0) (by decide), or_self, or_false,
    false_or] at whole
  cases whole

theorem zero_not_mem_name {dir : StoreDir} (lists : Lists filepath dir) (plain : 0 ∉ filepath)
    (under : c.Under filepath) {name : Bytes} (listed : dir.entry c.path = some name) :
    0 ∉ name := by
  obtain ⟨_, front, last, _⟩ := lists.lastName c.path name listed
  intro member
  refine not_mem_path plain under ?_
  rw [last]
  exact List.mem_append_right front (List.mem_cons_of_mem 47 member)

/-- A directory that can be listed with its whole name is, and its name is read as
its service. -/
theorem serviceOf_own {dir : StoreDir} (lists : Lists filepath dir) (plain : 0 ∉ filepath)
    (under : c.Under filepath) (given : c.store.tablePrefix ≠ [])
    (visible : c.store.tablePrefix.head? ≠ some 46) (flat : 47 ∉ c.store.tablePrefix)
    (text : 0 ∉ c.service)
    (short : filepath.length + c.store.tablePrefix.length + c.service.length + 18 < 4096) :
    dir.entry c.path = some c.name ∧ serviceOf c.store.tablePrefix c.name = some c.service := by
  obtain ⟨path, named⟩ := c.path_eq under plain
  have two : (bytes "__").length = 2 := by decide
  have nine : (bytes "__events_").length = 9 := by decide
  have whole : cstr c.service = c.service := cstr_eq_self text
  have ending : (bytes "__events_" ++ c.env.month).length = 15 := by
    rw [List.length_append, nine, under.calendar.length]
  constructor
  · have fits : (filepath ++ 47 :: c.name).length < 4096 := by
      rw [List.length_append, List.length_cons, Creation.name, List.length_append, ending,
        List.length_append, List.length_append, two, whole]
      omega
    rw [path, snprintf_eq_self fits]
    refine lists.plain c.name ?_ ?_
    · simp [Creation.name, given]
    · have separator : (47 : UInt8) ∉ bytes "__" := by decide
      have events : (47 : UInt8) ∉ bytes "__events_" := by decide
      simp only [Creation.name, List.mem_append, flat, separator, whole, under.service, events,
        under.calendar.not_mem (c := 47) (by decide), or_self, not_false_iff]
  · exact (serviceOf_eq_some given).mpr
      ⟨visible, bytes "__", bytes "__events_" ++ c.env.month, by rw [Creation.name, whole], two,
        ending, named⟩

/-- A directory that is listed and read has lost nothing of what is read. -/
theorem told_of_listed {dir : StoreDir} (lists : Lists filepath dir) (plain : 0 ∉ filepath)
    (under : c.Under filepath) {tablePrefix directory service : Bytes} (given : tablePrefix ≠ [])
    (listed : dir.entry c.path = some directory)
    (read : serviceOf tablePrefix directory = some service) :
    tablePrefix.head? ≠ some 46 ∧ 47 ∉ tablePrefix ∧ 0 ∉ service ∧
      filepath.length + tablePrefix.length + service.length + 18 < 4096 := by
  obtain ⟨visible, separator, ending, name, two, fifteen, _⟩ := (serviceOf_eq_some given).mp read
  obtain ⟨_, _, _, flat⟩ := lists.lastName c.path directory listed
  have text := zero_not_mem_name lists plain under listed
  have length := length_lastName lists listed
  have cut : c.path.length ≤ 4095 := by
    rw [(c.path_eq under plain).1, snprintf, List.length_take]
    omega
  rw [name] at flat text length
  simp only [List.mem_append, not_or] at flat text
  simp only [List.length_append, two, fifteen] at length
  exact ⟨visible, flat.1.1.1, text.1.2, by omega⟩

end Listing

theorem mem_selectServices {s : StoreLevelDB} {dir : StoreDir} {creations : List Creation}
    (lists : Lists s.filepath dir)
    (disk : ∀ path, path ∈ s.disk.keys ↔ ∃ c ∈ creations, c.path = path) (name : Bytes) :
    name ∈ (s.selectServices dir).2 ↔ ∃ c ∈ creations,
      ∃ directory, dir.entry c.path = some directory ∧
        serviceOf s.tablePrefix directory = some name := by
  simp only [selectServices, lists.opendirOk, if_true, directories, lists.others,
    List.append_nil, List.mem_filterMap, disk]
  constructor
  · rintro ⟨directory, ⟨_, ⟨c, member, rfl⟩, listed⟩, read⟩
    exact ⟨c, member, directory, listed, read⟩
  · rintro ⟨c, member, directory, listed, read⟩
    exact ⟨directory, ⟨c.path, ⟨c, member, rfl⟩, listed⟩, read⟩

/-- The names that a store finds under its prefix are the services created under it,
unchanged and without others, exactly when these can be told. -/
theorem services_recovered_iff (s : StoreLevelDB) (dir : StoreDir) (creations : List Creation)
    (plain : 0 ∉ s.filepath) (given : s.tablePrefix ≠ [])
    (under : ∀ c ∈ creations, c.Under s.filepath) (lists : Lists s.filepath dir)
    (disk : ∀ path, path ∈ s.disk.keys ↔ ∃ c ∈ creations, c.path = path) :
    (∀ name, name ∈ (s.selectServices dir).2 ↔
        ∃ c ∈ creations, c.store.tablePrefix = s.tablePrefix ∧ c.service = name) ↔
      Recoverable dir creations s.filepath s.tablePrefix := by
  have found := mem_selectServices lists disk
  constructor
  · intro right
    refine ⟨fun c member own => ?_, ?_⟩
    · obtain ⟨other, inside, directory, listed, read⟩ :=
        (found c.service).mp ((right c.service).mpr ⟨c, member, own, rfl⟩)
      exact told_of_listed lists plain (under other inside) given listed read
    · intro c member _ visible separator service ending two fifteen nonempty listed
      refine (right service).mp ((found service).mpr ⟨c, member, _, listed, ?_⟩)
      exact (serviceOf_eq_some given).mpr ⟨visible, separator, ending, rfl, two, fifteen, nonempty⟩
  · intro recoverable name
    have whole (c : Creation) (member : c ∈ creations) (own : c.store.tablePrefix = s.tablePrefix) :
        dir.entry c.path = some c.name ∧ serviceOf s.tablePrefix c.name = some c.service := by
      obtain ⟨visible, flat, text, short⟩ := recoverable.own c member own
      rw [← own] at given visible flat short ⊢
      exact serviceOf_own lists plain (under c member) given visible flat text short
    rw [found]
    constructor
    · rintro ⟨c, member, directory, listed, read⟩
      by_cases own : c.store.tablePrefix = s.tablePrefix
      · obtain ⟨itself, service⟩ := whole c member own
        obtain rfl := Option.some.inj (listed.symm.trans itself)
        exact ⟨c, member, own, Option.some.inj (service.symm.trans read)⟩
      · obtain ⟨visible, separator, ending, rfl, two, fifteen, nonempty⟩ :=
          (serviceOf_eq_some given).mp read
        exact recoverable.foreign c member own visible separator name ending two fifteen nonempty
          listed
    · rintro ⟨c, member, own, rfl⟩
      obtain ⟨listed, service⟩ := whole c member own
      exact ⟨c, member, c.name, listed, service⟩

/-! ### Two prefixes in one directory -/

private def february : LeveldbEnv := ⟨fun _ => ⟨119, 1⟩, 1550000000, true, true⟩

private theorem february_calendar : CalendarMonth february := ⟨by decide, by decide⟩

/-- A new store with the prefix opens the database of the service. -/
private def newIn (tablePrefix : Bytes) (service : Bytes) (named : service ≠ []) : Creation where
  store := init (bytes "store") tablePrefix
  env := february
  service := service
  path := (init (bytes "store") tablePrefix).fullpath service february.month
  made := by
    rw [opened, if_neg named]
    rfl

private theorem newIn_under {tablePrefix service : Bytes} (named : service ≠ [])
    (text : 0 ∉ tablePrefix) (flat : 47 ∉ service) :
    (newIn tablePrefix service named).Under (bytes "store") :=
  ⟨rfl, text, flat, february_calendar⟩

theorem lists_plainDir : Lists (bytes "store") Server.plainDir := by
  have slash : bytes "store/" = bytes "store" ++ [47] := by decide
  have below (rest : Bytes) : bytes "store" ++ 47 :: rest = bytes "store/" ++ rest := by
    rw [slash, List.append_assoc, List.singleton_append]
  have dropped (rest : Bytes) : (bytes "store/" ++ rest).drop 6 = rest :=
    List.drop_left' (by decide)
  refine ⟨rfl, rfl, fun name _ flat => ?_, fun path name listed => ?_⟩
  · rw [below, Server.plainDir]
    simp only [dropped, flat, not_false_iff, and_true, List.prefix_append, if_true]
  · rw [Server.plainDir] at listed
    simp only at listed
    split at listed
    · rename_i lies
      obtain ⟨⟨rest, rfl⟩, flat⟩ := lies
      obtain rfl := Option.some.inj listed
      rw [dropped] at flat ⊢
      exact ⟨⟨rest, (below rest).symm⟩, bytes "store", (below rest).symm, flat⟩
    · cases listed

/-- A store over the directories of some creations. -/
private def holding (tablePrefix : Bytes) (creations : List Creation) : StoreLevelDB :=
  { init (bytes "store") tablePrefix with
    disk := (OrdMap.empty : OrdMap Bytes Database).insertAll Creation.path (fun _ => .empty)
      creations }

private theorem disk_holding (tablePrefix : Bytes) (creations : List Creation) (path : Bytes) :
    path ∈ (holding tablePrefix creations).disk.keys ↔ ∃ c ∈ creations, c.path = path := by
  rw [holding, OrdMap.mem_keys_insertAll]
  simp [OrdMap.keys, OrdMap.empty]

/-- A service whose name contains the separators, and one of another prefix. -/
theorem services_recovered_iff_two :
    let creations := [newIn (bytes "a") (bytes "x__events_y") (by decide),
      newIn (bytes "b") (bytes "z") (by decide)]
    (∀ name, name ∈ ((holding (bytes "a") creations).selectServices Server.plainDir).2 ↔
        ∃ c ∈ creations, c.store.tablePrefix = bytes "a" ∧ c.service = name) ↔
      Recoverable Server.plainDir creations (bytes "store") (bytes "a") := by
  intro creations
  refine services_recovered_iff (holding (bytes "a") creations) Server.plainDir creations (by decide)
    (by decide) ?_ lists_plainDir (disk_holding _ creations)
  intro c member
  rcases List.mem_cons.mp member with rfl | second
  · exact newIn_under _ (by decide) (by decide)
  · rw [List.mem_singleton.mp second]
    exact newIn_under _ (by decide) (by decide)

/-- The service `svc` of the prefix `ab` is reported as `_svc` under the prefix `a`. -/
theorem longer_prefix_read :
    ¬ ∀ (s : StoreLevelDB) (dir : StoreDir) (creations : List Creation), 0 ∉ s.filepath →
      s.tablePrefix ≠ [] → (∀ c ∈ creations, c.Under s.filepath) → Lists s.filepath dir →
      (∀ path, path ∈ s.disk.keys ↔ ∃ c ∈ creations, c.path = path) →
        ∀ name, name ∈ (s.selectServices dir).2 ↔
          ∃ c ∈ creations, c.store.tablePrefix = s.tablePrefix ∧ c.service = name := by
  intro always
  set creations := [newIn (bytes "ab") (bytes "svc") (by decide)]
  have under : ∀ c ∈ creations, c.Under (bytes "store") := by
    intro c member
    rw [List.mem_singleton.mp member]
    exact newIn_under _ (by decide) (by decide)
  have right := always (holding (bytes "a") creations) Server.plainDir creations (by decide)
    (by decide) under lists_plainDir (disk_holding _ creations) (bytes "_svc")
  have reported : bytes "_svc" ∈
      ((holding (bytes "a") creations).selectServices Server.plainDir).2 := by
    decide +kernel
  obtain ⟨c, member, own, _⟩ := right.mp reported
  rw [List.mem_singleton.mp member] at own
  exact absurd own (by decide)

end Heracles.Business.StoreLevelDB
