import SmoothDemon.Monitor.GpuMonitor

/-!
# The GPU of the system information

`SystemInfoCollector::parse_gpu_info` (src/system_info.cpp) next to `GpuMonitor::initialize`.  The
one reports the first card with a vendor, the other monitors the first card with a frequency.  What
is reported is the model and PCI id of the monitored card iff that card has a vendor and the first
card with one has the same ids (`SystemInfo.describesMonitored_iff`).
-/

namespace SmoothDemon

namespace SystemInfo

open Text

structure GpuInfo where
  model : List Char
  pciId : List Char
  deriving DecidableEq

/-! ### The scan -/

/-- `f >> token`; the token is empty where there is none. -/
def extractToken (content : List Char) : List Char :=
  (content.dropWhile isSpace).takeWhile fun c => !isSpace c

/-- The loop over the entries: `vendor` and `device`.  After an error the next round ends it. -/
def readIds : List DrmEntry → List Char × List Char
  | [] => ([], [])
  | entry :: rest =>
    if isCardDirName entry.name then
      match entry.vendor.exists? with
      | none => ([], [])
      | some false => readIds rest
      | some true =>
        match entry.vendor.content? with
        | none => readIds rest
        | some vendor =>
          (extractToken vendor, (entry.device.content?.map extractToken).getD [])
    else readIds rest

/-! ### What is reported -/

/-- Without "0x" in front, in lower case. -/
def normalize (id : List Char) : List Char :=
  (if "0x".toList <+: id then id.drop 2 else id).map Char.toLower

/-- The decoding of both ids. -/
def describe (vendor device : List Char) : GpuInfo :=
  let vendor := normalize vendor
  let device := normalize device
  let pciId := vendor ++ ':' :: device
  if vendor = "8086".toList then
    if device = "5906".toList ∨ device = "5902".toList then
      { model := "Intel HD Graphics 610 (Kaby Lake GT1)".toList, pciId }
    else if device = "5916".toList ∨ device = "5917".toList then
      { model := "Intel HD Graphics 615 (Kaby Lake GT2)".toList, pciId }
    else if device = "5926".toList ∨ device = "5927".toList then
      { model := "Intel Iris Plus Graphics 640/650 (Kaby Lake GT3)".toList, pciId }
    else if device = "591b".toList ∨ device = "591d".toList then
      { model := "Intel HD Graphics 620 (Kaby Lake GT2)".toList, pciId }
    else { model := "Intel Integrated Graphics (device ".toList ++ device ++ [')'], pciId }
  else { model := "Unknown GPU (".toList ++ pciId ++ [')'], pciId }

def notDetected : GpuInfo where
  model := "Not Detected".toList
  pciId := "unknown".toList

/-- No directory has no entries. -/
def parseGpuInfo (drm : Option Drm) : GpuInfo :=
  let (vendor, device) := readIds (entriesOf drm)
  if vendor.isEmpty then notDetected else describe vendor device

/-! ### The ids of a card -/

/-- Vendor and device of a card whose vendor can be read and is not blank. -/
def tokens? (card : DrmEntry) : Option (List Char × List Char) :=
  card.vendor.content?.bind fun vendor =>
    if extractToken vendor = [] then none
    else some (extractToken vendor, (card.device.content?.map extractToken).getD [])

def ids? (card : DrmEntry) : Option (List Char × List Char) :=
  (tokens? card).map fun t => (normalize t.1, normalize t.2)

def info? (card : DrmEntry) : Option GpuInfo := (tokens? card).map fun t => describe t.1 t.2

/-- What is reported is what there is to say of the card. -/
def Describes (drm : Option Drm) (card : DrmEntry) : Prop := info? card = some (parseGpuInfo drm)

/-- The card is the one that the monitor selects. -/
def Monitors (m : GpuMonitor) (drm : Option Drm) (card : DrmEntry) : Prop :=
  ∃ m', m.initializeCard drm = (m', true) ∧ m'.drmCardPath = card.path

/-- The card entry that ends the scan for a vendor. -/
def vendorCard (entries : List DrmEntry) : Option DrmEntry :=
  entries.find? fun e =>
    isCardDirName e.name ∧ (e.vendor.exists? = none ∨ e.vendor.content?.isSome)

/-- The first card entry with a frequency, unless looking for one fails before. -/
def frequencyCard (entries : List DrmEntry) : Option DrmEntry :=
  (entries.find? fun e => isCardDirName e.name ∧ e.gtCurFreqMhz.exists? ≠ some false).filter
    fun e => e.gtCurFreqMhz.exists?.isSome

/-! ### Distinct ids are told apart -/

theorem colon_not_mem_normalize {id : List Char} (h : ':' ∉ id) : ':' ∉ normalize id := by
  have kept : ':' ∉ if "0x".toList <+: id then id.drop 2 else id := by
    split_ifs
    · exact fun colon => h (List.mem_of_mem_drop colon)
    · exact h
  intro colon
  obtain ⟨c, hc, lower⟩ := List.mem_map.1 colon
  unfold Char.toLower at lower
  split at lower
  · -- a lower case letter is no colon
    rename_i upper
    have value := congrArg (fun d => d.val.toNat) lower
    have range := And.imp UInt32.le_iff_toNat_le.1 UInt32.le_iff_toNat_le.1 upper
    simp at value range
    omega
  · exact kept (lower ▸ hc)

theorem colon_not_mem_of_tokens? {card : DrmEntry} {t : List Char × List Char}
    (h : tokens? card = some t) : ':' ∉ t.1 := by
  obtain ⟨vendor, content, rest⟩ := Option.bind_eq_some_iff.1 h
  split_ifs at rest
  cases rest
  intro colon
  have plain := card.vendor_plain vendor content
  exact plain ((List.dropWhile_sublist _).mem ((List.takeWhile_sublist _).mem colon))

theorem pciId_describe (vendor device : List Char) :
    (describe vendor device).pciId = normalize vendor ++ ':' :: normalize device := by
  unfold describe
  dsimp only
  split_ifs <;> rfl

theorem describe_ne_notDetected (vendor device : List Char) :
    describe vendor device ≠ notDetected := by
  intro h
  have colon : ':' ∈ notDetected.pciId := by
    rw [← h, pciId_describe]
    simp
  exact absurd colon (by decide)

theorem info?_eq_iff {a b : DrmEntry} : info? a = info? b ↔ ids? a = ids? b := by
  unfold info? ids?
  cases ha : tokens? a with
  | none => simp
  | some t =>
    cases hb : tokens? b with
    | none => simp
    | some u =>
      rw [Option.map_some, Option.map_some, Option.map_some, Option.map_some, Option.some_inj,
        Option.some_inj]
      constructor
      · intro same
        have pciId := congrArg GpuInfo.pciId same
        rw [pciId_describe, pciId_describe] at pciId
        have left := colon_not_mem_normalize (colon_not_mem_of_tokens? ha)
        have right := colon_not_mem_normalize (colon_not_mem_of_tokens? hb)
        exact Prod.ext_iff.2 (Text.append_separator_inj left right pciId)
      · intro same
        obtain ⟨vendor, device⟩ := Prod.mk.inj same
        simp only [describe, vendor, device]

/-! ### The two scans -/

theorem readIds_eq (entries : List DrmEntry) :
    (vendorCard entries).bind tokens? =
      if (readIds entries).1 = [] then none else some (readIds entries) := by
  induction entries with
  | nil => rfl
  | cons e rest ih =>
    rw [readIds]
    unfold vendorCard at ih ⊢
    by_cases name : isCardDirName e.name
    · cases file : e.vendor with
      | absent => simpa [name, file] using ih
      | hidden => simp [name, file, tokens?]
      | unreadable => simpa [name, file] using ih
      | readable content => simp [name, file, tokens?]
    · simpa [name] using ih

theorem parseGpuInfo_eq (drm : Option Drm) :
    parseGpuInfo drm = ((vendorCard (entriesOf drm)).bind info?).getD notDetected := by
  have found : (vendorCard (entriesOf drm)).bind info? =
      ((vendorCard (entriesOf drm)).bind tokens?).map fun t => describe t.1 t.2 := by
    cases vendorCard (entriesOf drm) <;> rfl
  rw [found, readIds_eq]
  unfold parseGpuInfo
  dsimp only
  split_ifs with blank blank' blank'
  · rfl
  · exact absurd (List.isEmpty_iff.1 blank) blank'
  · exact absurd (List.isEmpty_iff.2 blank') blank
  · rfl

theorem findCard_eq (entries : List DrmEntry) :
    GpuMonitor.findCard entries = frequencyCard entries := by
  induction entries with
  | nil => rfl
  | cons e rest ih =>
    rw [GpuMonitor.findCard]
    unfold frequencyCard at ih ⊢
    by_cases name : isCardDirName e.name
    · cases file : e.gtCurFreqMhz with
      | absent => simpa [name, file] using ih
      | hidden => simp [name, file, Option.filter]
      | unreadable => simp [name, file, Option.filter]
      | readable content => simp [name, file, Option.filter]
    · simpa [name] using ih

theorem describes_iff (drm : Option Drm) (card : DrmEntry) :
    Describes drm card ↔
      (ids? card).isSome ∧ (vendorCard (entriesOf drm)).bind ids? = ids? card := by
  have readable (e : DrmEntry) : (ids? e).isSome = (info? e).isSome := by
    simp [ids?, info?]
  have undetected (e : DrmEntry) : info? e ≠ some notDetected := by
    intro h
    obtain ⟨t, -, described⟩ := Option.map_eq_some_iff.1 h
    exact describe_ne_notDetected _ _ described
  rw [Describes, parseGpuInfo_eq]
  cases scan : vendorCard (entriesOf drm) with
  | none =>
    refine iff_of_false (undetected card) fun ok => ?_
    rw [← ok.2] at ok
    cases ok.1
  | some other =>
    rw [Option.bind_some, Option.bind_some, ← info?_eq_iff, readable]
    cases info? other with
    | none =>
      refine iff_of_false (undetected card) fun ok => ?_
      rw [← ok.2] at ok
      cases ok.1
    | some info =>
      rw [Option.getD_some, eq_comm (a := some info), iff_and_self]
      intro same
      rw [same]
      rfl

/-! ### The monitored card -/

variable {m : GpuMonitor} {drm : Option Drm} {card : DrmEntry}

theorem mem_of_frequencyCard (h : frequencyCard (entriesOf drm) = some card) :
    card ∈ entriesOf drm :=
  List.mem_of_find?_eq_some (Option.filter_eq_some_iff.1 h).1

theorem monitors_iff (h : card ∈ entriesOf drm) :
    Monitors m drm card ↔ frequencyCard (entriesOf drm) = some card := by
  constructor
  · rintro ⟨m', selected, path⟩
    obtain ⟨⟨other, found, path'⟩, -⟩ := GpuMonitor.exists_of_initializeCard selected
    rw [findCard_eq] at found
    rwa [path_inj h (mem_of_frequencyCard found) (path.symm.trans path')]
  · intro first
    rw [← findCard_eq] at first
    unfold Monitors GpuMonitor.initializeCard
    rw [first]
    exact ⟨_, rfl, rfl⟩

/-- The model and PCI id reported are those of the monitored card iff that card has a vendor and
the first card with one has the same vendor and device ids. -/
theorem describesMonitored_iff (m : GpuMonitor) (drm : Option Drm) :
    (∀ card ∈ entriesOf drm, Monitors m drm card → Describes drm card) ↔
      ∀ card ∈ frequencyCard (entriesOf drm), (ids? card).isSome ∧
        (vendorCard (entriesOf drm)).bind ids? = ids? card := by
  constructor
  · intro h card hc
    have member : card ∈ entriesOf drm := mem_of_frequencyCard hc
    exact (describes_iff drm card).1 (h card member ((monitors_iff member).2 hc))
  · intro h card member monitored
    exact (describes_iff drm card).2 (h card ((monitors_iff member).1 monitored))

section Example

/-- A discrete card, and an integrated one with a frequency. -/
def hybrid : Drm where
  entries := [
    { name := "card0".toList
      vendor := .readable "0x10de\n".toList
      device := .readable "0x1c8d\n".toList },
    { name := "card1".toList
      gtCurFreqMhz := .readable "300\n".toList
      vendor := .readable "0x8086\n".toList
      device := .readable "0x5916\n".toList }]
  distinct := by simp

theorem not_describesMonitored :
    ¬ ∀ card ∈ entriesOf (some hybrid), Monitors {} (some hybrid) card →
      Describes (some hybrid) card := by
  intro h
  obtain ⟨card, member, monitored, other⟩ : ∃ card ∈ entriesOf (some hybrid),
      Monitors {} (some hybrid) card ∧ info? card ≠ some (parseGpuInfo (some hybrid)) := by
    refine ⟨_, List.mem_cons_of_mem _ List.mem_cons_self, ⟨_, rfl, rfl⟩, ?_⟩
    decide
  exact other (h card member monitored)

end Example

end SystemInfo

end SmoothDemon
