import PosFirmware.File.EnvCache

/-! # Whose environment `GetEnv` reads

`PutEnv` records the caller as the owner of the cache before it opens the caller's file.
When the file can be neither found nor created, the cache keeps the data of another
application under the caller's number, and the caller's next `GetEnv` answers from it
(`getEnv_leaks`). In runs that stay clear of this and of three more slips
(`EnvCondition`), `GetEnv` answers from the caller's own file, and with the text of the
caller's last successful `PutEnv` of the name (`getEnv_own`).
-/

namespace PosFirmware.File

open PosFirmware.Foundation

/-! ## What an application's own file holds -/

/-- The value that the bytes of an environment file give a name. -/
def fileEnv (bytes : List Byte) (name : List Byte) : EnvAnswer :=
  searchValue (EnvCache.initial.load bytes).sEnvData (EnvCache.initial.load bytes).sEnvLen name

/-- What `GetEnv` answers an application that reads its own file. -/
def ownEnv (flist : FileList) (app : Byte) (envname : List Byte) : EnvAnswer :=
  if envname.headD 0 = 0 then .failed 0x01
  else
    match ownFile flist ENV_FILE app with
    | some item => fileEnv item.bytes (nameOf envname)
    | none => .failed 0x01

/-- `GetEnv` answers an application from its own file, and with the text of its last
successful `PutEnv` of the name. -/
def AnswersOwn (s : EnvSystem) : Prop :=
  ∀ app envname,
    (getEnv s.flist s.cache (some app) envname).1 = ownEnv s.flist app envname ∧
    ∀ text, s.stored app (nameOf envname) = some text → envname.headD 0 ≠ 0 →
      (getEnv s.flist s.cache (some app) envname).1 = .value text

/-! ## The condition -/

/-- An application's data is in the cache. -/
def Cached (cache : EnvCache) : Prop := cache.sEnvId < MAX_FILES

instance (cache : EnvCache) : Decidable (Cached cache) := inferInstanceAs (Decidable (_ < _))

/-- `PutEnv` on these bytes of a file either appends its record where a record begins, or
finds a value that a zero ends when it finds the value that it was to write. -/
def PutsWhole (bytes envname text : List Byte) (room : Bool) : Prop :=
  let loaded := EnvCache.initial.load bytes
  match envSearch loaded.sEnvData loaded.sEnvLen (nameOf envname) with
  | some record =>
      sameValue loaded.sEnvData record text ∧ 128 * record + 128 ≤ loaded.sEnvLen →
        text.length ≤ 119
  | none => room = true ∧ bytes.length < ENV_SIZE → 128 ∣ bytes.length

/-- No other application's data is in the cache when `PutEnv` cannot open a file or
`GetEnv` opens an empty one, and `PutEnv` finds records that are whole. -/
def EnvCondition (s : EnvSystem) : EnvEvent → Prop
  | .getEnv (some app) _ =>
      Cached s.cache → s.cache.sEnvAppNum ≠ app →
        (ownFile s.flist ENV_FILE app).map FileItem.bytes ≠ some []
  | .putEnv (some app) envname value room =>
      (sOpenCreate s.flist ENV_FILE app = none → ¬ Cached s.cache) ∧
      PutsWhole (((ownFile s.flist ENV_FILE app).map FileItem.bytes).getD []) envname
        (cstr value) room
  | _ => True

instance (bytes envname text : List Byte) (room : Bool) :
    Decidable (PutsWhole bytes envname text room) := by
  unfold PutsWhole
  dsimp only
  split <;> infer_instance

instance (s : EnvSystem) : (event : EnvEvent) → Decidable (EnvCondition s event)
  | .getEnv (some app) _ => inferInstanceAs (Decidable (Cached s.cache →
      s.cache.sEnvAppNum ≠ app → (ownFile s.flist ENV_FILE app).map FileItem.bytes ≠ some []))
  | .putEnv (some app) envname value room => inferInstanceAs (Decidable
      ((sOpenCreate s.flist ENV_FILE app = none → ¬ Cached s.cache) ∧
        PutsWhole (((ownFile s.flist ENV_FILE app).map FileItem.bytes).getD []) envname
          (cstr value) room))
  | .getEnv none _ | .putEnv none _ _ _ | .create _ _ | .write _ _ _ _ | .truncate _ _
  | .remove _ => inferInstanceAs (Decidable True)

/-! ## Files -/

theorem named_iff {entry : Option FileItem} {fileName : List Byte} {attr : Byte} :
    named entry fileName attr = true ↔
      ∃ item, entry = some item ∧ item.attr = attr ∧ item.fileName = fileName := by
  cases entry <;> simp [named]

theorem sSearchFile_named {flist : FileList} {fileName : List Byte} {attr : Byte}
    {fd : Fin MAX_FILES} (found : sSearchFile flist fileName attr = some fd) :
    ∃ item, flist fd = some item ∧ item.attr = attr ∧ item.fileName = fileName := by
  have hit := List.find?_some found
  exact named_iff.mp hit

/-- A change of one entry is not seen by a search that neither its old nor its new
contents answer. -/
theorem sSearchFile_update {flist : FileList} {fd : Fin MAX_FILES} {entry : Option FileItem}
    {fileName : List Byte} {attr : Byte}
    (same : named entry fileName attr = named (flist fd) fileName attr) :
    sSearchFile (Function.update flist fd entry) fileName attr =
      sSearchFile flist fileName attr := by
  have pointwise : (fun i => named (Function.update flist fd entry i) fileName attr) =
      fun i => named (flist i) fileName attr := by
    funext i
    by_cases own : i = fd
    · subst own
      rw [Function.update_self, same]
    · rw [Function.update_of_ne own]
  unfold sSearchFile
  rw [pointwise]

theorem sSearchFile_created {flist : FileList} {fd : Fin MAX_FILES} {item : FileItem}
    (missing : sSearchFile flist item.fileName item.attr = none) :
    sSearchFile (Function.update flist fd (some item)) item.fileName item.attr = some fd := by
  have others : ∀ i, named (Function.update flist fd (some item) i) item.fileName item.attr =
      decide (i = fd) := by
    intro i
    by_cases own : i = fd
    · subst own
      simp [named]
    · have unnamed := List.find?_eq_none.mp missing i (List.mem_finRange i)
      rw [Function.update_of_ne own, decide_eq_false own]
      simpa using unnamed
  unfold sSearchFile
  simp only [others]
  cases found : (List.finRange MAX_FILES).find? fun i => decide (i = fd) with
  | none => exact absurd (List.find?_eq_none.mp found fd (List.mem_finRange fd)) (by simp)
  | some i =>
      have hit := List.find?_some found
      exact congrArg some (by simpa using hit)

/-- What opening or creating a file gives: the file's handle, found from then on, and no
other change. -/
theorem sOpenCreate_some {flist after : FileList} {fileName : List Byte} {attr : Byte}
    {fd : Fin MAX_FILES} (opened : sOpenCreate flist fileName attr = some (fd, after)) :
    (sSearchFile flist fileName attr = some fd ∧ after = flist) ∨
    (sSearchFile flist fileName attr = none ∧ flist fd = none ∧
      after = Function.update flist fd (some ⟨fileName, attr, []⟩)) := by
  unfold sOpenCreate at opened
  split at opened
  next fd' found =>
    obtain ⟨rfl, rfl⟩ := Prod.mk.inj (Option.some.inj opened)
    exact .inl ⟨found, rfl⟩
  next missing =>
    split at opened
    next fd' free =>
      obtain ⟨rfl, rfl⟩ := Prod.mk.inj (Option.some.inj opened)
      have empty := List.find?_some free
      exact .inr ⟨missing, by simpa using empty, rfl⟩
    next => cases opened

theorem ownFile_eq {flist : FileList} {fileName : List Byte} {attr : Byte} {fd : Fin MAX_FILES}
    (found : sSearchFile flist fileName attr = some fd) :
    ownFile flist fileName attr = flist fd := by
  rw [ownFile, found]
  rfl

theorem ownFile_update {flist : FileList} {fd : Fin MAX_FILES} {entry : Option FileItem}
    {fileName : List Byte} {attr : Byte} (before : named (flist fd) fileName attr = false)
    (after : named entry fileName attr = false) :
    ownFile (Function.update flist fd entry) fileName attr = ownFile flist fileName attr := by
  unfold ownFile
  rw [sSearchFile_update (after.trans before.symm)]
  cases found : sSearchFile flist fileName attr with
  | none => rfl
  | some own =>
      have other : own ≠ fd := by
        rintro rfl
        rw [named_iff.mpr (sSearchFile_named found)] at before
        cases before
      exact Function.update_of_ne other _ _

/-! ## Records -/

theorem envSearch_eq_some {data : Nat → Byte} {len : Nat} {name : List Byte} {record : Nat} :
    envSearch data len name = some record ↔
      recordName data record = name ∧ 128 * record < len ∧
        ∀ earlier < record, recordName data earlier ≠ name := by
  have bound : record < (len + 127) / 128 ↔ 128 * record < len := by omega
  simp [envSearch, bound]

theorem envSearch_eq_none {data : Nat → Byte} {len : Nat} {name : List Byte} :
    envSearch data len name = none ↔
      ∀ record, 128 * record < len → recordName data record ≠ name := by
  have bound (record : Nat) : record < (len + 127) / 128 ↔ 128 * record < len := by omega
  simp [envSearch, bound]

@[simp] theorem copyName_length (envname : List Byte) : (copyName envname).length = 7 := by
  simp [copyName]

theorem envRecord_length (envname text : List Byte) : (envRecord envname text).length = 128 := by
  simp [envRecord]

theorem envRecord_name (envname text : List Byte) :
    ((envRecord envname text).drop 0).take 7 = copyName envname := by
  rw [List.drop_zero, envRecord, List.append_assoc,
    List.take_append_of_le_length (by simp), List.take_of_length_le (by simp)]

theorem envRecord_value (envname text : List Byte) :
    ((envRecord envname text).drop 8).take 120 =
      text.take 119 ++ 0 :: List.replicate (119 - (text.take 119).length) 0 := by
  have short : (text.take 119).length ≤ 119 := List.length_take_le _ _
  have zeros : List.replicate (120 - (text.take 119).length) (0 : Byte) =
      0 :: List.replicate (119 - (text.take 119).length) 0 := by
    rw [← List.replicate_succ]
    congr 1
    omega
  have split : envRecord envname text = (copyName envname ++ [0]) ++
      (text.take 119 ++ 0 :: List.replicate (119 - (text.take 119).length) 0) := by
    rw [envRecord, zeros]
    simp
  rw [split, List.drop_left' (by simp), List.take_of_length_le]
  simp only [List.length_append, List.length_cons, List.length_replicate]
  omega

/-! ## A record written into a file -/

theorem load_sEnvData (cache : EnvCache) (bytes : List Byte) (i : Nat) :
    (cache.load bytes).sEnvData i = ((bytes.take ENV_SIZE)[i]?).getD 0 := by
  simp [EnvCache.load, blit]

theorem load_sEnvLen (cache : EnvCache) (bytes : List Byte) :
    (cache.load bytes).sEnvLen = min ENV_SIZE bytes.length := by
  simp [EnvCache.load]

theorem overwrite_getElem? {bytes written : List Byte} {offset i : Nat}
    (inside : offset ≤ bytes.length) :
    (overwrite bytes offset written)[i]? =
      if offset ≤ i ∧ i < offset + written.length then written[i - offset]? else bytes[i]? := by
  have front : (bytes.take offset).length = offset := List.length_take_of_le inside
  rw [overwrite, List.append_assoc]
  by_cases before : i < offset
  · rw [List.getElem?_append_left (by omega), if_neg (by omega), List.getElem?_take_of_lt before]
  · rw [List.getElem?_append_right (by omega), front]
    by_cases within : i < offset + written.length
    · rw [List.getElem?_append_left (by omega), if_pos (by omega)]
    · rw [List.getElem?_append_right (by omega), if_neg (by omega), List.getElem?_drop]
      congr 1
      omega

theorem overwrite_length {bytes written : List Byte} {offset : Nat}
    (inside : offset ≤ bytes.length) :
    (overwrite bytes offset written).length = max bytes.length (offset + written.length) := by
  simp only [overwrite, List.length_append, List.length_take, List.length_drop]
  omega

theorem load_overwrite {bytes written : List Byte} {offset : Nat} (cache : EnvCache)
    (inside : offset ≤ bytes.length) (fits : offset + written.length ≤ ENV_SIZE) :
    (cache.load (overwrite bytes offset written)).sEnvData =
      blit (cache.load bytes).sEnvData offset written := by
  funext i
  rw [load_sEnvData, List.getElem?_take, overwrite_getElem? inside]
  by_cases within : offset ≤ i ∧ i < offset + written.length
  · obtain ⟨start, below⟩ := within
    rw [if_pos (by omega), if_pos ⟨start, below⟩, blit, if_pos start,
      List.getElem?_eq_getElem (by omega)]
    rfl
  · rw [if_neg within, blit_outside (by omega), load_sEnvData, List.getElem?_take]

/-- Where `PutEnv` writes the record of a name: on the first record of the name, or
where one would begin after records of other names. -/
structure RecordPlace (bytes name : List Byte) (record : Nat) : Prop where
  fits : 128 * record + 128 ≤ ENV_SIZE
  reached : 128 * record ≤ bytes.length
  earlier : ∀ other < record, recordName (EnvCache.initial.load bytes).sEnvData other ≠ name
  own : 128 * record < bytes.length →
    recordName (EnvCache.initial.load bytes).sEnvData record = name

variable {bytes envname text : List Byte} {record : Nat}

theorem recordName_blit_ne (data : Nat → Byte) {other : Nat} (apart : other ≠ record) :
    recordName (blit data (128 * record) (envRecord envname text)) other =
      recordName data other := by
  unfold recordName
  rw [slice_blit_outside (by rw [envRecord_length]; omega)]

theorem recordValue_blit_ne (data : Nat → Byte) {other : Nat} (apart : other ≠ record) :
    recordValue (blit data (128 * record) (envRecord envname text)) other =
      recordValue data other := by
  unfold recordValue
  rw [slice_blit_outside (by rw [envRecord_length]; omega)]

theorem recordName_blit (data : Nat → Byte) :
    recordName (blit data (128 * record) (envRecord envname text)) record = nameOf envname := by
  have named : slice (blit data (128 * record) (envRecord envname text)) (128 * record + 0) 7 =
      ((envRecord envname text).drop 0).take 7 :=
    slice_blit_inside (by rw [envRecord_length]; omega)
  rw [Nat.add_zero, envRecord_name] at named
  rw [recordName, named, nameOf]

theorem recordValue_blit (data : Nat → Byte) (clean : 0 ∉ text) :
    recordValue (blit data (128 * record) (envRecord envname text)) record =
      .value (text.take 119) := by
  have short : (0 : Byte) ∉ text.take 119 := fun member => clean (List.mem_of_mem_take member)
  rw [recordValue, slice_blit_inside (by rw [envRecord_length]), envRecord_value,
    if_pos (by simp), cstr_append_zero _ short]

/-- **A written record is found, and no other.** After `PutEnv` wrote the record of a
name, the file gives the name the text, and every other name what it gave it before. -/
theorem fileEnv_write (place : RecordPlace bytes (nameOf envname) record) (clean : 0 ∉ text) :
    fileEnv (overwrite bytes (128 * record) (envRecord envname text)) (nameOf envname) =
      .value (text.take 119) ∧
    ∀ name ≠ nameOf envname,
      fileEnv (overwrite bytes (128 * record) (envRecord envname text)) name =
        fileEnv bytes name := by
  have size := envRecord_length envname text
  have fits := place.fits
  have reached := place.reached
  have data : (EnvCache.initial.load (overwrite bytes (128 * record)
      (envRecord envname text))).sEnvData =
      blit (EnvCache.initial.load bytes).sEnvData (128 * record) (envRecord envname text) :=
    load_overwrite _ reached (by omega)
  have length : (EnvCache.initial.load (overwrite bytes (128 * record)
      (envRecord envname text))).sEnvLen =
      max (EnvCache.initial.load bytes).sEnvLen (128 * record + 128) := by
    rw [load_sEnvLen, load_sEnvLen, overwrite_length reached, size]
    omega
  have bound : (EnvCache.initial.load bytes).sEnvLen = min ENV_SIZE bytes.length :=
    load_sEnvLen _ _
  unfold fileEnv searchValue
  rw [data, length]
  constructor
  · have found : envSearch (blit (EnvCache.initial.load bytes).sEnvData (128 * record)
        (envRecord envname text)) (max (EnvCache.initial.load bytes).sEnvLen (128 * record + 128))
        (nameOf envname) = some record := by
      refine envSearch_eq_some.mpr ⟨recordName_blit _, by omega, fun other less => ?_⟩
      rw [recordName_blit_ne _ (by omega)]
      exact place.earlier other less
    simp only [found]
    exact recordValue_blit _ clean
  · intro name different
    cases before : envSearch (EnvCache.initial.load bytes).sEnvData
        (EnvCache.initial.load bytes).sEnvLen name with
    | some other =>
        obtain ⟨named, below, first⟩ := envSearch_eq_some.mp before
        have apart : other ≠ record := by
          rintro rfl
          exact different (named.symm.trans (place.own (by omega)))
        have found : envSearch (blit (EnvCache.initial.load bytes).sEnvData (128 * record)
            (envRecord envname text))
            (max (EnvCache.initial.load bytes).sEnvLen (128 * record + 128)) name =
            some other := by
          refine envSearch_eq_some.mpr ⟨?_, by omega, fun earlier less => ?_⟩
          · rw [recordName_blit_ne _ apart, named]
          · by_cases own : earlier = record
            · rw [own, recordName_blit]
              exact different.symm
            · rw [recordName_blit_ne _ own]
              exact first earlier less
        simp only [found]
        exact recordValue_blit_ne _ apart
    | none =>
        have missing := envSearch_eq_none.mp before
        have still : envSearch (blit (EnvCache.initial.load bytes).sEnvData (128 * record)
            (envRecord envname text))
            (max (EnvCache.initial.load bytes).sEnvLen (128 * record + 128)) name = none := by
          refine envSearch_eq_none.mpr fun other below => ?_
          by_cases own : other = record
          · rw [own, recordName_blit]
            exact different.symm
          · rw [recordName_blit_ne _ own]
            exact missing other (by omega)
        simp only [still]

/-! ## `PutEnv` -/

theorem not_cached {cache : EnvCache} (emptied : cache.sEnvId = 0xFFFF) : ¬ Cached cache := by
  rw [Cached, emptied]
  decide

/-- What `PutEnv` does to the file that it opened and to the cache that holds it. -/
structure PutEffect (flist : FileList) (fd : Fin MAX_FILES) (item : FileItem) (cache : EnvCache)
    (envname text : List Byte) (result : Nat × FileList × EnvCache) (bytes : List Byte) :
    Prop where
  files : result.2.1 = Function.update flist fd (some { item with bytes })
  others : ∀ name ≠ nameOf envname, fileEnv bytes name = fileEnv item.bytes name
  put : result.1 = 0 → fileEnv bytes (nameOf envname) = .value (text.take 119)
  failed : result.1 ≠ 0 → bytes = item.bytes
  cached : (result.2.2 = cache ∧ bytes = item.bytes) ∨ ¬ Cached result.2.2

private theorem PutEffect.unchanged {flist : FileList} {fd : Fin MAX_FILES} {item : FileItem}
    {cache : EnvCache} {envname text : List Byte} {code : Nat} (present : flist fd = some item)
    (put : code = 0 → fileEnv item.bytes (nameOf envname) = .value (text.take 119)) :
    PutEffect flist fd item cache envname text (code, flist, cache) item.bytes where
  files := by rw [← present, Function.update_eq_self]
  others := fun _ _ => rfl
  put := put
  failed := fun _ => rfl
  cached := .inl ⟨rfl, rfl⟩

theorem recordValue_of_sameValue {data : Nat → Byte} {record : Nat} {text : List Byte}
    (same : sameValue data record text) (clean : 0 ∉ text) (short : text.length ≤ 119) :
    recordValue data record = .value text := by
  have split : slice data (128 * record + 8) 120 =
      text ++ 0 :: (slice data (128 * record + 8) 120).drop (text.length + 1) := by
    have front : (slice data (128 * record + 8) 120).take (text.length + 1) = text ++ [0] := by
      rw [take_slice (by omega)]
      exact same
    calc slice data (128 * record + 8) 120
        = (slice data (128 * record + 8) 120).take (text.length + 1) ++
            (slice data (128 * record + 8) 120).drop (text.length + 1) :=
          (List.take_append_drop _ _).symm
      _ = text ++ 0 :: (slice data (128 * record + 8) 120).drop (text.length + 1) := by
          rw [front]
          simp
  rw [recordValue, split, if_pos (by simp), cstr_append_zero _ clean]

private theorem PutEffect.written {flist : FileList} {fd : Fin MAX_FILES} {item : FileItem}
    {cache : EnvCache} {envname text : List Byte} {record : Nat}
    (place : RecordPlace item.bytes (nameOf envname) record) (clean : 0 ∉ text)
    {after : EnvCache} (emptied : ¬ Cached after) :
    PutEffect flist fd item cache envname text
      (0, Function.update flist fd (some { item with
        bytes := overwrite item.bytes (128 * record) (envRecord envname text) }), after)
      (overwrite item.bytes (128 * record) (envRecord envname text)) where
  files := rfl
  others := (fileEnv_write place clean).2
  put := fun _ => (fileEnv_write place clean).1
  failed := fun wrong => absurd rfl wrong
  cached := .inr emptied

private theorem PutEffect.noRoom {flist : FileList} {fd : Fin MAX_FILES} {item : FileItem}
    {cache : EnvCache} {envname text : List Byte} (present : flist fd = some item)
    {after : EnvCache} (emptied : ¬ Cached after) :
    PutEffect flist fd item cache envname text (0x02, flist, after) item.bytes where
  files := by rw [← present, Function.update_eq_self]
  others := fun _ _ => rfl
  put := fun wrong => by cases (wrong : 2 = 0)
  failed := fun _ => rfl
  cached := .inr emptied

/-- The cache holds the bytes of a file. -/
def Holds (cache : EnvCache) (bytes : List Byte) : Prop :=
  cache.sEnvData = (EnvCache.initial.load bytes).sEnvData ∧
    cache.sEnvLen = (EnvCache.initial.load bytes).sEnvLen

theorem putRecord_effect {flist : FileList} {fd : Fin MAX_FILES} {item : FileItem}
    {cache : EnvCache} {envname text : List Byte} {room : Bool} (present : flist fd = some item)
    (environment : item.fileName = ENV_FILE) (holds : Holds cache item.bytes) (clean : 0 ∉ text)
    (whole : PutsWhole item.bytes envname text room) :
    ∃ bytes, PutEffect flist fd item cache envname text
      (putRecord flist cache fd item envname text room) bytes := by
  have length := load_sEnvLen EnvCache.initial item.bytes
  unfold PutsWhole at whole
  dsimp only at whole
  unfold putRecord
  rw [holds.1, holds.2]
  cases search : envSearch (EnvCache.initial.load item.bytes).sEnvData
      (EnvCache.initial.load item.bytes).sEnvLen (nameOf envname) with
  | some record =>
      obtain ⟨named, below, earlier⟩ := envSearch_eq_some.mp search
      have limit : ENV_SIZE = 128 * 512 := rfl
      have place : RecordPlace item.bytes (nameOf envname) record :=
        ⟨by omega, by omega, earlier, fun _ => named⟩
      rw [search] at whole
      dsimp only at whole ⊢
      split
      next same =>
        refine ⟨_, .unchanged present fun _ => ?_⟩
        have short := whole same
        rw [fileEnv, searchValue, search, List.take_of_length_le short]
        exact recordValue_of_sameValue same.1 clean short
      next =>
        unfold kWrite
        rw [if_pos environment]
        cases room with
        | true => exact ⟨_, .written place clean (not_cached rfl)⟩
        | false => exact ⟨_, .noRoom present (not_cached rfl)⟩
  | none =>
      rw [search] at whole
      dsimp only at whole ⊢
      split
      next => exact ⟨_, .unchanged present fun wrong => absurd wrong (by decide)⟩
      next small =>
        unfold kWrite
        rw [if_pos environment]
        cases room with
        | true =>
            have shorter : item.bytes.length < ENV_SIZE := by omega
            obtain ⟨record, aligned⟩ := whole ⟨rfl, shorter⟩
            have limit : ENV_SIZE = 128 * 512 := rfl
            have missing := envSearch_eq_none.mp search
            have place : RecordPlace item.bytes (nameOf envname) record :=
              ⟨by omega, by omega, fun other less => missing other (by omega),
                fun below => absurd below (by omega)⟩
            rw [aligned]
            exact ⟨_, .written place clean (not_cached rfl)⟩
        | false => exact ⟨_, .noRoom present (not_cached rfl)⟩

/-! ## The invariant -/

/-- The cache holds the file of its owner. -/
def OwnerCached (flist : FileList) (cache : EnvCache) : Prop :=
  Cached cache → ∃ fd item, sSearchFile flist ENV_FILE cache.sEnvAppNum = some fd ∧
    flist fd = some item ∧ cache.sEnvId = fd ∧ Holds cache item.bytes

/-- What was stored last is in the file of who stored it. -/
def StoredHeld (flist : FileList) (stored : Byte → List Byte → Option (List Byte)) : Prop :=
  ∀ app name text, stored app name = some text →
    ∃ item, ownFile flist ENV_FILE app = some item ∧ fileEnv item.bytes name = .value text

/-- What every call keeps. -/
structure EnvSound (s : EnvSystem) : Prop where
  owned : OwnerCached s.flist s.cache
  held : StoredHeld s.flist s.stored

theorem ownerCached_of_not_cached {flist : FileList} {cache : EnvCache}
    (emptied : ¬ Cached cache) : OwnerCached flist cache := fun present => absurd present emptied

/-- **From the invariant, `GetEnv` answers from the caller's own file.** -/
theorem EnvSound.answersOwn {s : EnvSystem} (sound : EnvSound s) : AnswersOwn s := by
  have answer (app : Byte) (envname : List Byte) :
      (getEnv s.flist s.cache (some app) envname).1 = ownEnv s.flist app envname := by
    unfold getEnv ownEnv
    dsimp only
    split
    · rfl
    · split
      next hit =>
        obtain ⟨fd, item, found, present, -, data, length⟩ := sound.owned hit.1
        rw [hit.2] at found
        rw [ownFile_eq found, present, data, length]
        rfl
      next =>
        split
        next missing => rw [ownFile, missing]; rfl
        next fd found =>
          obtain ⟨item, present, -⟩ := sSearchFile_named found
          rw [ownFile_eq found, present]
          dsimp only [Option.map_some, Option.getD_some]
          split
          next empty =>
            have length := load_sEnvLen s.cache item.bytes
            have none : item.bytes = [] := List.eq_nil_of_length_eq_zero (by
              have : 0 < ENV_SIZE := by decide
              omega)
            rw [none]
            rfl
          next => rfl
  refine fun app envname => ⟨answer app envname, fun text put named => ?_⟩
  obtain ⟨item, own, value⟩ := sound.held app _ text put
  rw [answer, ownEnv, if_neg named, own]
  exact value

/-- A change of a file by another call keeps the invariant: of an environment file
because it empties the cache and ends what was stored, of another because no
application's environment is in it. -/
theorem EnvSound.changed {s : EnvSystem} (sound : EnvSound s) {fd : Fin MAX_FILES}
    {item : FileItem} {after : Option FileItem} (present : s.flist fd = some item)
    (same : ∀ changed, after = some changed →
      changed.fileName = item.fileName ∧ changed.attr = item.attr) :
    EnvSound (s.changed fd item after) := by
  have unnamed (app : Byte) (other : ¬ (item.attr = app ∧ item.fileName = ENV_FILE)) :
      named (s.flist fd) ENV_FILE app = false ∧ named after ENV_FILE app = false := by
    refine ⟨by simp only [named, present, other, decide_false], ?_⟩
    cases new : after with
    | none => rfl
    | some changed =>
        obtain ⟨name, attr⟩ := same changed new
        simp only [named, name, attr, other, decide_false]
  unfold EnvSystem.changed
  by_cases environment : item.fileName = ENV_FILE
  · simp only [environment, if_true]
    refine ⟨ownerCached_of_not_cached (not_cached rfl), fun app name text put => ?_⟩
    have other : item.attr ≠ app := by
      rintro rfl
      simp at put
    have stored : s.stored app name = some text := by
      simpa only [Function.update_of_ne other.symm] using put
    have apart := unnamed app fun both => other both.1
    obtain ⟨own, found, value⟩ := sound.held app name text stored
    exact ⟨own, (ownFile_update apart.1 apart.2).trans found, value⟩
  · have apart (app : Byte) := unnamed app fun both => environment both.2
    simp only [environment, if_false]
    refine ⟨fun cached => ?_, fun app name text put => ?_⟩
    · obtain ⟨own, content, found, held, id, holds⟩ := sound.owned cached
      have away : own ≠ fd := by
        rintro rfl
        obtain ⟨_, here, -, environmental⟩ := sSearchFile_named found
        rw [present] at here
        exact environment (Option.some.inj here ▸ environmental)
      refine ⟨own, content, ?_, (Function.update_of_ne away _ _).trans held, id, holds⟩
      rw [sSearchFile_update ((apart _).2.trans (apart _).1.symm)]
      exact found
    · obtain ⟨own, found, value⟩ := sound.held app name text put
      exact ⟨own, (ownFile_update (apart app).1 (apart app).2).trans found, value⟩

theorem EnvSound.opened {s : EnvSystem} (sound : EnvSound s) {fileName : List Byte}
    {attr : Byte} {fd : Fin MAX_FILES} {flist : FileList}
    (opened : sOpenCreate s.flist fileName attr = some (fd, flist)) :
    EnvSound { s with flist } := by
  obtain ⟨-, rfl⟩ | ⟨missing, free, rfl⟩ := sOpenCreate_some opened
  · exact sound
  have before (app : Byte) : named (s.flist fd) ENV_FILE app = false := by rw [free]; rfl
  have after {app : Byte} {own : Fin MAX_FILES}
      (found : sSearchFile s.flist ENV_FILE app = some own) :
      named (some (⟨fileName, attr, []⟩ : FileItem)) ENV_FILE app = false := by
    refine Bool.eq_false_iff.mpr fun same => ?_
    obtain ⟨_, created, owner, environment⟩ := named_iff.mp same
    obtain rfl := Option.some.inj created
    obtain rfl : attr = app := owner
    obtain rfl : fileName = ENV_FILE := environment
    rw [missing] at found
    cases found
  refine ⟨fun cached => ?_, fun app name text put => ?_⟩
  · obtain ⟨own, content, found, held, id, holds⟩ := sound.owned cached
    have away : own ≠ fd := by
      rintro rfl
      rw [free] at held
      cases held
    refine ⟨own, content, ?_, (Function.update_of_ne away _ _).trans held, id, holds⟩
    rw [sSearchFile_update ((after found).trans (before _).symm)]
    exact found
  · obtain ⟨own, found, value⟩ := sound.held app name text put
    refine ⟨own, ?_, value⟩
    cases search : sSearchFile s.flist ENV_FILE app with
    | none =>
        rw [ownFile, search] at found
        cases found
    | some fd' => rw [ownFile_update (before app) (after search), found]

/-- `GetEnv` keeps the invariant, unless it reads an empty file over another
application's data. -/
theorem EnvSound.getEnv {s : EnvSystem} (sound : EnvSound s) {caller : Option Byte}
    {envname : List Byte} (clear : EnvCondition s (.getEnv caller envname)) :
    EnvSound (envStep s (.getEnv caller envname)) := by
  refine ⟨?_, sound.held⟩
  change OwnerCached s.flist (File.getEnv s.flist s.cache caller envname).2
  unfold File.getEnv
  cases caller with
  | none => exact sound.owned
  | some app =>
      dsimp only
      split
      · exact sound.owned
      · split
        · exact sound.owned
        next miss =>
          split
          · exact sound.owned
          next fd found =>
            obtain ⟨item, present, -⟩ := sSearchFile_named found
            rw [present]
            dsimp only [Option.map_some, Option.getD_some]
            split
            next empty =>
              have length := load_sEnvLen s.cache item.bytes
              refine ownerCached_of_not_cached fun cached => ?_
              refine clear cached (fun owner => miss ⟨cached, owner⟩) ?_
              have none : item.bytes = [] := List.eq_nil_of_length_eq_zero (by
                have : 0 < ENV_SIZE := by decide
                omega)
              rw [ownFile_eq found, present, Option.map_some, none]
            next =>
              exact fun _ => ⟨fd, item, found, present, rfl, rfl, rfl⟩

theorem sOpenCreate_own {flist after : FileList} {app : Byte} {fd : Fin MAX_FILES}
    (opened : sOpenCreate flist ENV_FILE app = some (fd, after)) :
    sSearchFile after ENV_FILE app = some fd ∧
      ∃ item, after fd = some item ∧ item.fileName = ENV_FILE ∧ item.attr = app ∧
        item.bytes = ((ownFile flist ENV_FILE app).map FileItem.bytes).getD [] := by
  obtain ⟨found, rfl⟩ | ⟨missing, -, rfl⟩ := sOpenCreate_some opened
  · obtain ⟨item, present, owner, environment⟩ := sSearchFile_named found
    refine ⟨found, item, present, environment, owner, ?_⟩
    rw [ownFile_eq found, present]
    rfl
  · refine ⟨sSearchFile_created missing, _, Function.update_self .., rfl, rfl, ?_⟩
    rw [ownFile, missing]
    rfl

theorem EnvSound.loaded {s : EnvSystem} (sound : EnvSound s) (app : Byte) {fd : Fin MAX_FILES}
    {item : FileItem} (present : s.flist fd = some item) :
    let cache := { s.cache with sEnvAppNum := app }.reload fd item.bytes
    Holds cache item.bytes ∧ cache.sEnvId = fd ∧ cache.sEnvAppNum = app := by
  dsimp only
  unfold EnvCache.reload
  split
  · exact ⟨⟨rfl, rfl⟩, rfl, rfl⟩
  next hit =>
    have id : s.cache.sEnvId = fd := not_ne_iff.mp hit
    obtain ⟨own, content, -, held, ownId, holds⟩ := sound.owned (by
      rw [Cached, id]
      exact fd.isLt)
    obtain rfl : own = fd := Fin.ext (ownId.symm.trans id)
    obtain rfl : content = item := Option.some.inj (held.symm.trans present)
    exact ⟨holds, id, rfl⟩

/-- What `PutEnv` does to the caller's file keeps the invariant, and stores the text when
it succeeds. -/
theorem PutEffect.sound {s : EnvSystem} {fd : Fin MAX_FILES} {item : FileItem}
    {cache : EnvCache} {envname text : List Byte} {result : Nat × FileList × EnvCache}
    {bytes : List Byte} (effect : PutEffect s.flist fd item cache envname text result bytes)
    (sound : EnvSound s) (found : sSearchFile s.flist ENV_FILE item.attr = some fd)
    (present : s.flist fd = some item) (holds : Holds cache item.bytes) (id : cache.sEnvId = fd)
    (owner : cache.sEnvAppNum = item.attr) :
    EnvSound ⟨result.2.1, result.2.2,
      if result.1 = 0 then
        Function.update s.stored item.attr
          (Function.update (s.stored item.attr) (nameOf envname) (some (text.take 119)))
      else s.stored⟩ := by
  have still : sSearchFile result.2.1 ENV_FILE item.attr = some fd := by
    rw [effect.files, sSearchFile_update (by rw [present]; rfl), found]
  have written : result.2.1 fd = some { item with bytes } := by
    rw [effect.files, Function.update_self]
  refine ⟨?_, fun app name put stored => ?_⟩
  · obtain ⟨same, kept⟩ | emptied := effect.cached
    · intro _
      change ∃ own content, sSearchFile result.2.1 ENV_FILE result.2.2.sEnvAppNum = some own ∧ _
      rw [same, owner]
      exact ⟨fd, { item with bytes }, still, written, id, by simpa only [kept] using holds⟩
    · exact ownerCached_of_not_cached emptied
  · change ∃ own, ownFile result.2.1 ENV_FILE app = some own ∧ _
    by_cases own : app = item.attr
    · subst own
      refine ⟨_, (ownFile_eq still).trans written, ?_⟩
      have before {text' : List Byte} (old : s.stored item.attr name = some text') :
          fileEnv item.bytes name = .value text' := by
        obtain ⟨content, found', value⟩ := sound.held _ _ _ old
        rw [ownFile_eq found, present] at found'
        exact Option.some.inj found' ▸ value
      by_cases success : result.1 = 0
      · simp only [success, if_true, Function.update_self] at stored
        by_cases same : name = nameOf envname
        · subst same
          rw [Function.update_self] at stored
          exact (effect.put success).trans (congrArg _ (Option.some.inj stored))
        · rw [Function.update_of_ne same] at stored
          exact (effect.others name same).trans (before stored)
      · simp only [success, if_false] at stored
        rw [effect.failed success]
        exact before stored
    · have old : s.stored app name = some put := by
        dsimp only at stored
        split at stored
        · rwa [Function.update_of_ne own] at stored
        · exact stored
      obtain ⟨content, found', value⟩ := sound.held _ _ _ old
      refine ⟨content, ?_, value⟩
      have apart (bytes : List Byte) :
          named (some { item with bytes }) ENV_FILE app = false := by
        simp [named, Ne.symm own]
      rw [effect.files, ownFile_update (present ▸ apart item.bytes) (apart bytes), found']

/-- `PutEnv` keeps the invariant, unless it cannot open a file while another
application's data is in the cache, or puts its record where no `GetEnv` finds it. -/
theorem EnvSound.putEnv {s : EnvSystem} (sound : EnvSound s) {caller : Option Byte}
    {envname value : List Byte} {room : Bool}
    (clear : EnvCondition s (.putEnv caller envname value room)) :
    EnvSound (envStep s (.putEnv caller envname value room)) := by
  cases caller with
  | none => exact ⟨sound.owned, sound.held⟩
  | some app =>
      change EnvSound ⟨(File.putEnv s.flist s.cache (some app) envname value room).2.1,
        (File.putEnv s.flist s.cache (some app) envname value room).2.2,
        if (File.putEnv s.flist s.cache (some app) envname value room).1 = 0 then _
        else s.stored⟩
      by_cases unnamed : envname.headD 0 = 0
      · have refused : File.putEnv s.flist s.cache (some app) envname value room =
            (0x01, s.flist, s.cache) := if_pos unnamed
        rw [refused]
        exact ⟨sound.owned, sound.held⟩
      · cases opened : sOpenCreate s.flist ENV_FILE app with
        | none =>
            have refused : File.putEnv s.flist s.cache (some app) envname value room =
                (0x02, s.flist, { s.cache with sEnvAppNum := app }) := by
              simp only [File.putEnv, unnamed, if_false, opened]
            rw [refused]
            exact ⟨ownerCached_of_not_cached (clear.1 opened), sound.held⟩
        | some result =>
            obtain ⟨fd, flist⟩ := result
            have soundOpened := sound.opened opened
            obtain ⟨found, item, present, environment, rfl, bytes⟩ := sOpenCreate_own opened
            have whole := clear.2
            rw [← bytes] at whole
            obtain ⟨holds, id, owner⟩ := soundOpened.loaded item.attr present
            obtain ⟨bytes', effect⟩ := putRecord_effect present environment holds
              (zero_notMem_cstr value) whole
            have put : File.putEnv s.flist s.cache (some item.attr) envname value room =
                putRecord flist ({ s.cache with sEnvAppNum := item.attr }.reload fd item.bytes)
                  fd item envname (cstr value) room := by
              simp only [File.putEnv, unnamed, if_false, opened, present, Option.getD_some]
            rw [put]
            exact PutEffect.sound (s := { s with flist }) effect soundOpened found present holds
              id owner

private theorem EnvSound.step {s : EnvSystem} {event : EnvEvent} (sound : EnvSound s)
    (clear : EnvCondition s event) : EnvSound (envStep s event) := by
  cases event with
  | getEnv caller envname => exact sound.getEnv clear
  | putEnv caller envname value room => exact sound.putEnv clear
  | create fileName attr =>
      unfold envStep
      dsimp only
      split
      · exact sound
      · split
        next opened => exact sound.opened opened
        · exact sound
  | write fd offset written room =>
      unfold envStep
      dsimp only
      split
      next item present =>
        split
        · exact sound
        · split
          · exact sound.changed present fun changed same => Option.some.inj same ▸ ⟨rfl, rfl⟩
          · refine ⟨?_, sound.held⟩
            unfold kWrite
            split
            · exact ownerCached_of_not_cached (not_cached rfl)
            · exact sound.owned
      next => exact sound
  | truncate fd len =>
      unfold envStep
      dsimp only
      split
      next item present =>
        split
        · exact sound.changed present fun changed same => Option.some.inj same ▸ ⟨rfl, rfl⟩
        · exact sound
      next => exact sound
  | remove fd =>
      unfold envStep
      dsimp only
      split
      next item present => exact sound.changed present fun changed same => by cases same
      next => exact sound

/-! ## Results -/

/-- **`GetEnv` answers from the caller's own file.** After every run of `PutEnv`, `GetEnv`
and other calls on files in which `PutEnv` opens a file and `GetEnv` no empty one while
another application's data is in the cache, and `PutEnv` finds whole records, `GetEnv`
answers every application what the application's own file holds, and with the text of its
last successful `PutEnv` of the name where no other call changed the file since. -/
theorem getEnv_own {flist : FileList} {events : List EnvEvent}
    (meets : Meets envStep EnvCondition (envStart flist) events) :
    AnswersOwn (runEvents envStep (envStart flist) events) := by
  have first : EnvSound (envStart flist) :=
    ⟨ownerCached_of_not_cached (not_cached rfl), fun _ _ _ put => by cases put⟩
  exact (runEvents_keeps (fun s event sound clear => sound.step clear) first meets).answersOwn

/-- Two applications put and get a setting of the same name, and one of the files is
written over by another call. -/
def twoApplications : List EnvEvent :=
  [.putEnv (some 1) [0x4B] [0x31] true, .putEnv (some 2) [0x4B] [0x32] true,
    .getEnv (some 1) [0x4B], .write 1 8 [0x33] true, .putEnv (some 1) [0x4C] [0x34] true]

/-- After these calls each of them is answered from its own file. -/
theorem getEnv_own_twoApplications :
    AnswersOwn (runEvents envStep (envStart fun _ => none) twoApplications) :=
  getEnv_own (by decide +kernel)

/-- All entries but the first taken by files of the monitor. -/
def oneEntryLeft : FileList := fun fd => if fd = 0 then none else some ⟨[0x41], 0xFF, []⟩

/-- One application puts and gets a setting, and another cannot create its file. -/
def secondFails : List EnvEvent :=
  [.putEnv (some 1) [0x4B] [0x31] true, .getEnv (some 1) [0x4B],
    .putEnv (some 2) [0x4B] [0x32] true]

/-- **`GetEnv` hands out another application's setting.** The second application has no
file, and is answered with the first one's value. -/
theorem getEnv_leaks :
    let s := runEvents envStep (envStart oneEntryLeft) secondFails
    (getEnv s.flist s.cache (some 2) [0x4B]).1 = .value [0x31] ∧
      ownEnv s.flist 2 [0x4B] = .failed 0x01 ∧ ¬ AnswersOwn s := by
  have leaked : (getEnv (runEvents envStep (envStart oneEntryLeft) secondFails).flist
      (runEvents envStep (envStart oneEntryLeft) secondFails).cache (some 2) [0x4B]).1 =
      .value [0x31] := by decide +kernel
  have own : ownEnv (runEvents envStep (envStart oneEntryLeft) secondFails).flist 2 [0x4B] =
      .failed 0x01 := by decide +kernel
  refine ⟨leaked, own, fun answers => ?_⟩
  have same := (answers 2 [0x4B]).1
  rw [leaked, own] at same
  cases same

/-- A cached file is emptied by another application's `GetEnv` of an empty one, and its
owner reads the older of two records from then on. -/
example :
    let s := runEvents envStep (envStart fun _ => none)
      [.putEnv (some 1) [0x4B] [0x31] true, .getEnv (some 1) [0x4B], .create ENV_FILE 2,
        .getEnv (some 2) [0x4B], .putEnv (some 1) [0x4B] [0x32] true]
    s.stored 1 [0x4B] = some [0x32] ∧
      (getEnv s.flist s.cache (some 1) [0x4B]).1 = .value [0x31] := by decide +kernel

end PosFirmware.File
