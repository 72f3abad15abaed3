import Syscape.PciDevices

/-!
# Completeness of the PCI enumeration

A name that is no address is passed over without an error. The parser refuses the names of
functions whose domain has more than four digits, as behind a controller that opens a domain
of its own, so the enumeration is complete where it meets none of them.
-/
namespace Syscape.Hardware
open Checked Text Numbers LinuxFile Paths StdSort Numerals FromChars Digits

section Names

/-- The name under which the kernel lists a function. -/
def PciAddress.name (a : PciAddress) : List UInt8 :=
  paddedLowerHex 4 a.domain ++ 0x3A :: (paddedLowerHex 2 a.bus ++ 0x3A ::
    (paddedLowerHex 2 a.device ++ 0x2E :: decimal a.function))

/-- A function that the kernel can list. -/
structure PciFunction where
  address : PciAddress
  domain_lt : address.domain < 2 ^ 32
  bus_lt : address.bus < 2 ^ 8
  device_lt : address.device < 2 ^ 5
  function_lt : address.function < 2 ^ 3

def PciFunction.name (f : PciFunction) : List UInt8 := f.address.name

theorem bdfPart_numeral {bound n : ℕ} {text : List UInt8} (hbound : bound ≤ uint32Max)
    (h : Numeral 16 n text) : bdfPart bound text = if n ≤ bound then some n else none := by
  rw [bdfPart]
  cases hnumber : numberOf 16 uint32Max text with
  | none =>
    have hlarge : ¬ n ≤ bound := by
      intro hle
      rw [numberOf_numeral h (hle.trans hbound)] at hnumber
      cases hnumber
    rw [if_neg hlarge]
  | some m =>
    obtain ⟨hm, -⟩ := numberOf_eq_some hnumber
    obtain rfl : m = n := hm.value_eq.symm.trans h.value_eq
    simp only [gt_iff_lt, ← not_le, ite_not]

/-- A digit is printed alike in both bases. -/
theorem lowerHexadecimal_eq_decimal {n : ℕ} (h : n < 10) : lowerHexadecimal n = decimal n := by
  interval_cases n <;> simp [lowerHexadecimal, decimal, ofNat, lowerHexDigit, asciiDigit]

theorem parsePciBdf_parts {domain bus device function : List UInt8} (hne : domain ≠ [])
    (hdomain : 0x3A ∉ domain) (hbus : 0x3A ∉ bus) (hdevice : 0x2E ∉ device) :
    parsePciBdf (domain ++ 0x3A :: (bus ++ 0x3A :: (device ++ 0x2E :: function))) = (do
      let domain ← bdfPart 0xFFFF domain
      let bus ← bdfPart 0xFF bus
      let device ← bdfPart 0x1F device
      let function ← bdfPart 0x07 function
      some ⟨domain, bus, device, function⟩) := by
  have hlength : domain.length ≠ 0 := by simpa using hne
  simp only [parsePciBdf, idxOf?_append_cons hdomain, if_neg hlength, drop_append_cons,
    idxOf?_append_cons hbus, idxOf?_append_cons hdevice, List.take_left']

/-- The parser understands the names of functions whose domain has sixteen bits. -/
theorem parsePciBdf_name (f : PciFunction) :
    parsePciBdf f.name = if f.address.domain < 2 ^ 16 then some f.address else none := by
  have hcolon : ∀ {n width : ℕ}, (0x3A : UInt8) ∉ paddedLowerHex width n := by
    intro n width hmem
    exact (mem_numeral (numeral_paddedLowerHex width n) (by decide) hmem).2.2 rfl
  have hdot : (0x2E : UInt8) ∉ paddedLowerHex 2 f.address.device := by
    intro hmem
    exact absurd (mem_numeral (numeral_paddedLowerHex 2 _) (by decide) hmem).1 (by decide)
  have hfunction : Numeral 16 f.address.function (decimal f.address.function) := by
    rw [← lowerHexadecimal_eq_decimal (by have := f.function_lt; omega)]
    exact numeral_lowerHexadecimal _
  have hne := (numeral_paddedLowerHex 4 f.address.domain).ne_nil
  have hbus : f.address.bus ≤ 0xFF := by have := f.bus_lt; omega
  have hdevice : f.address.device ≤ 0x1F := by have := f.device_lt; omega
  have hfunction_le : f.address.function ≤ 0x07 := by have := f.function_lt; omega
  rw [PciFunction.name, PciAddress.name, parsePciBdf_parts hne hcolon hcolon hdot,
    bdfPart_numeral (by decide) (numeral_paddedLowerHex 4 _),
    bdfPart_numeral (by decide) (numeral_paddedLowerHex 2 _),
    bdfPart_numeral (by decide) (numeral_paddedLowerHex 2 _),
    bdfPart_numeral (by decide) hfunction, if_pos hbus, if_pos hdevice, if_pos hfunction_le]
  by_cases hdomain : f.address.domain < 2 ^ 16
  · rw [if_pos (by omega), if_pos hdomain]
    rfl
  · rw [if_neg (by omega), if_neg hdomain]
    rfl

end Names

section Attributes

/-- What `read_text_file` gives for a file of the function. -/
def readFile (bus : PciBus) (name file : List UInt8) : Result (List UInt8) :=
  readTextFile bus.files (attributePath name file) (1024 * 1024)

/-- The file can be read. -/
def IsReadable (bus : PciBus) (name file : List UInt8) : Prop :=
  ∃ text, readFile bus name file = .ok text

/-- The file has disappeared. -/
def IsGone (bus : PciBus) (name file : List UInt8) : Prop :=
  ∃ e, readFile bus name file = .error e ∧ deviceAttributeDisappeared e = true

/-- The file can be read, but it is no number up to the bound. -/
def IsRefused (bus : PciBus) (name file : List UInt8) (bound : ℕ) : Prop :=
  ∃ text, readFile bus name file = .ok text ∧ ∀ n ≤ bound, parseHexU32 text ≠ .ok n

/-- The attributes of the function stay readable; those of the subsystem and the driver may
be missing. -/
structure Readable (bus : PciBus) (name : List UInt8) : Prop where
  vendor : IsReadable bus name (ascii "vendor")
  device : IsReadable bus name (ascii "device")
  class_ : IsReadable bus name (ascii "class")
  subsystemVendor : IsReadable bus name (ascii "subsystem_vendor") ∨
    IsGone bus name (ascii "subsystem_vendor")
  subsystemDevice : IsReadable bus name (ascii "subsystem_device") ∨
    IsGone bus name (ascii "subsystem_device")
  driver : (∃ target, bus.links (attributePath name (ascii "driver")) = .ok target) ∨
    ∃ errno ∈ [enoent, enodev, einval],
      bus.links (attributePath name (ascii "driver")) = .error errno

/-- The target of the driver's link does not fit into the buffer. -/
def IsLong (bus : PciBus) (name : List UInt8) : Prop :=
  ∃ target, bus.links (attributePath name (ascii "driver")) = .ok target ∧ 1023 ≤ target.length

/-- An attribute is no number of its width, or the target of the link is too long. -/
def Refused (bus : PciBus) (name : List UInt8) : Prop :=
  IsRefused bus name (ascii "vendor") 0xFFFF ∨ IsRefused bus name (ascii "device") 0xFFFF ∨
  IsRefused bus name (ascii "class") 0xFFFFFF ∨
  IsRefused bus name (ascii "subsystem_vendor") 0xFFFF ∨
  IsRefused bus name (ascii "subsystem_device") 0xFFFF ∨ IsLong bus name

variable {bus : PciBus} {name file : List UInt8} {bound : ℕ}

theorem readHexAttribute_eq (bus : PciBus) (name file : List UInt8) (bound : ℕ) :
    readHexAttribute bus (attributePath name file) bound =
      match readFile bus name file with
      | .ok content => do
        let value ← parseHexU32 content
        if value > bound then fail .malformedData else .ok (some value)
      | .error e => if deviceAttributeDisappeared e then .ok none else .error e := rfl

/-- A file that can be read is a number or refused. -/
theorem readHexAttribute_cases (bound : ℕ) (h : IsReadable bus name file) :
    (IsRefused bus name file bound ∧
      ∃ e, readHexAttribute bus (attributePath name file) bound = .error e) ∨
    ¬ IsRefused bus name file bound ∧
      ∃ n, readHexAttribute bus (attributePath name file) bound = .ok (some n) := by
  obtain ⟨text, htext⟩ := h
  rw [readHexAttribute_eq, IsRefused, htext]
  simp only [Except.ok.injEq, exists_eq_left']
  cases hvalue : parseHexU32 text with
  | error e => exact .inl ⟨by simp, e, rfl⟩
  | ok n =>
    rw [ok_bind]
    by_cases hbound : n ≤ bound
    · rw [if_neg (not_lt.mpr hbound)]
      exact .inr ⟨fun hall => hall n hbound rfl, n, rfl⟩
    · rw [if_pos (not_le.mp hbound)]
      refine .inl ⟨?_, _, rfl⟩
      intro m hm heq
      cases heq
      exact hbound hm

theorem readHexAttribute_gone (h : IsGone bus name file) :
    readHexAttribute bus (attributePath name file) bound = .ok none := by
  obtain ⟨e, he, hgone⟩ := h
  rw [readHexAttribute_eq, he]
  exact if_pos hgone

/-- An attribute that may be missing. -/
theorem readHexAttribute_optional (bound : ℕ)
    (h : IsReadable bus name file ∨ IsGone bus name file) :
    (IsRefused bus name file bound ∧
      ∃ e, readHexAttribute bus (attributePath name file) bound = .error e) ∨
    ¬ IsRefused bus name file bound ∧
      ∃ n, readHexAttribute bus (attributePath name file) bound = .ok n := by
  rcases h with h | h
  · rcases readHexAttribute_cases bound h with hrefused | ⟨hnot, n, hn⟩
    · exact .inl hrefused
    · exact .inr ⟨hnot, some n, hn⟩
  · refine .inr ⟨?_, none, readHexAttribute_gone h⟩
    intro hrefused
    obtain ⟨text, htext, -⟩ := hrefused
    obtain ⟨e, he, -⟩ := h
    rw [he] at htext
    cases htext

theorem readDriver_cases (h : Readable bus name) :
    (IsLong bus name ∧ ∃ e, readDriver bus (attributePath name (ascii "driver")) = .error e) ∨
      ¬ IsLong bus name ∧
        ∃ driver, readDriver bus (attributePath name (ascii "driver")) = .ok driver := by
  rw [readDriver, IsLong]
  rcases h.driver with ⟨target, htarget⟩ | ⟨errno, herrno, hlink⟩
  · simp only [htarget, Except.ok.injEq, exists_eq_left']
    by_cases hlong : 1023 ≤ target.length
    · have hlength : (target.take 1023).length = 1023 := by simpa using hlong
      have hne : target.take 1023 ≠ [] := by
        intro hnil
        rw [hnil] at hlength
        cases hlength
      rw [if_neg hne, if_pos hlength]
      exact .inl ⟨hlong, _, rfl⟩
    · have hlength : (target.take 1023).length ≠ 1023 := by simpa using hlong
      rw [if_neg hlength]
      refine .inr ⟨hlong, ?_⟩
      split_ifs
      · exact ⟨_, rfl⟩
      · exact ⟨_, rfl⟩
      · exact ⟨_, rfl⟩
  · have hgone : ¬ (errno ≠ enoent ∧ errno ≠ enodev ∧ errno ≠ einval) := by
      rintro ⟨h1, h2, h3⟩
      simp [h1, h2, h3] at herrno
    simp only [hlink, if_neg hgone]
    exact .inr ⟨by simp, none, rfl⟩

end Attributes

section Devices

variable {bus : PciBus}

/-- The parts of the address in the record. -/
def PciDevice.address (d : PciDevice) : Option ℕ × Option ℕ × Option ℕ × Option ℕ :=
  (d.domain, d.bus, d.device, d.function)

/-- The parts that the name of the function encodes. -/
def PciFunction.parts (f : PciFunction) : Option ℕ × Option ℕ × Option ℕ × Option ℕ :=
  (some f.address.domain, some f.address.bus, some f.address.device, some f.address.function)

theorem head?_name (f : PciFunction) : f.name.head? ≠ some 0x2E := by
  have hnumeral := numeral_paddedLowerHex 4 f.address.domain
  have hhead : f.name.head? = (paddedLowerHex 4 f.address.domain).head? :=
    List.head?_append_of_ne_nil _ hnumeral.ne_nil
  rw [hhead]
  intro h
  exact absurd (mem_numeral hnumeral (by decide) (List.mem_of_mem_head? h)).1 (by decide)

theorem pciDevice_of_domain_large {f : PciFunction} (h : ¬ f.address.domain < 2 ^ 16) :
    pciDevice bus f.name = .ok none := by
  rw [pciDevice, if_neg (head?_name f), parsePciBdf_name, if_neg h]

/-- A function whose name is understood has a record, or the enumeration fails. -/
theorem pciDevice_cases {f : PciFunction} (hdomain : f.address.domain < 2 ^ 16)
    (h : Readable bus f.name) :
    (Refused bus f.name ∧ ∃ e, pciDevice bus f.name = .error e) ∨
      ¬ Refused bus f.name ∧
        ∃ d, pciDevice bus f.name = .ok (some d) ∧ d.address = f.parts := by
  simp only [pciDevice, if_neg (head?_name f), parsePciBdf_name, if_pos hdomain]
  rcases readHexAttribute_cases 0xFFFF h.vendor with ⟨hr, e, he⟩ | ⟨hvendor, n, hn⟩
  · exact .inl ⟨by simp [Refused, hr], e, by rw [he, error_bind]⟩
  rw [hn, ok_bind]
  rcases readHexAttribute_cases 0xFFFF h.device with ⟨hr, e, he⟩ | ⟨hdevice, m, hm⟩
  · exact .inl ⟨by simp [Refused, hr], e, by simp only [he, error_bind]⟩
  simp only [hm, ok_bind]
  rcases readHexAttribute_cases 0xFFFFFF h.class_ with ⟨hr, e, he⟩ | ⟨hclass, c, hc⟩
  · exact .inl ⟨by simp [Refused, hr], e, by rw [he, error_bind]⟩
  simp only [hc, ok_bind]
  rcases readHexAttribute_optional 0xFFFF h.subsystemVendor with ⟨hr, e, he⟩ | ⟨hsubvendor, sv, hsv⟩
  · exact .inl ⟨by simp [Refused, hr], e, by rw [he, error_bind]⟩
  rw [hsv, ok_bind]
  rcases readHexAttribute_optional 0xFFFF h.subsystemDevice with ⟨hr, e, he⟩ | ⟨hsubdevice, sd, hsd⟩
  · exact .inl ⟨by simp [Refused, hr], e, by rw [he, error_bind]⟩
  rw [hsd, ok_bind]
  rcases readDriver_cases h with ⟨hr, e, he⟩ | ⟨hdriver, driver, hd⟩
  · exact .inl ⟨by simp [Refused, hr], e, by rw [he, error_bind]⟩
  rw [hd, ok_bind]
  refine .inr ⟨?_, _, rfl, rfl⟩
  simp [Refused, hvendor, hdevice, hclass, hsubvendor, hsubdevice, hdriver]

/-- The record of an entry, if the loop gets one. -/
def found (bus : PciBus) (name : Path) : Option PciDevice :=
  match pciDevice bus name with
  | .ok dev => dev
  | .error _ => none

theorem addPciDevice_eq_ok (list : List PciDevice) (name : Path) (list' : List PciDevice) :
    addPciDevice bus list name = .ok list' ↔
      (∃ dev, pciDevice bus name = .ok dev) ∧ list' = list ++ (found bus name).toList := by
  rw [addPciDevice, found]
  rcases pciDevice bus name with e | _ | dev <;> simp [eq_comm]

theorem foldlM_addPciDevice_eq_ok {names : List Path} {list out : List PciDevice} :
    names.foldlM (addPciDevice bus) list = .ok out ↔
      (∀ name ∈ names, ∃ dev, pciDevice bus name = .ok dev) ∧
        out = list ++ names.filterMap (found bus) := by
  have hrecords : names.foldl (fun list name => list ++ (found bus name).toList) list =
      list ++ names.filterMap (found bus) := by
    induction names generalizing list with
    | nil => simp
    | cons name names ih =>
      rw [List.foldl_cons, ih, List.filterMap_cons, List.append_assoc]
      cases found bus name <;> rfl
  rw [foldlM_eq_ok addPciDevice_eq_ok, hrecords]

end Devices

section Completeness

variable {bus : PciBus} {names : List Path} {functions : List PciFunction}

/-- The directory has an entry for each function, and perhaps hidden entries. -/
def Lists (names : List Path) (functions : List PciFunction) : Prop :=
  names.filter (fun name => name.head? ≠ some 0x2E) = functions.map PciFunction.name

/-- The enumeration fails, or it has one record for each function, under its address. -/
def Complete (functions : List PciFunction) (outcome : Result (List PciDevice)) : Prop :=
  (∃ e, outcome = .error e) ∨
    ∃ devices, outcome = .ok devices ∧
      (devices.map PciDevice.address).Perm (functions.map PciFunction.parts)

/-- Only a list of records has to be looked at. -/
theorem complete_of_forall_ok {outcome : Result (List PciDevice)}
    (h : ∀ devices, outcome = .ok devices →
      (devices.map PciDevice.address).Perm (functions.map PciFunction.parts)) :
    Complete functions outcome := by
  cases outcome with
  | error e => exact .inl ⟨e, rfl⟩
  | ok devices => exact .inr ⟨devices, rfl, h devices rfl⟩

theorem pciDevice_hidden {name : Path} (h : name.head? = some 0x2E) :
    pciDevice bus name = .ok none := if_pos h

theorem Lists.mem_names (h : Lists names functions) {f : PciFunction} (hf : f ∈ functions) :
    f.name ∈ names := by
  have hmem : f.name ∈ functions.map PciFunction.name := List.mem_map_of_mem hf
  rw [← h] at hmem
  exact List.mem_of_mem_filter hmem

/-- An entry is hidden or a function. -/
theorem Lists.cases (h : Lists names functions) {name : Path} (hname : name ∈ names) :
    name.head? = some 0x2E ∨ ∃ f ∈ functions, f.name = name := by
  by_cases hhidden : name.head? = some 0x2E
  · exact .inl hhidden
  · have hmem : name ∈ functions.map PciFunction.name := by
      rw [← h]
      exact List.mem_filter.mpr ⟨hname, by simpa using hhidden⟩
    exact .inr (List.mem_map.mp hmem)

/-- Hidden entries have no records. -/
theorem Lists.filterMap_found (h : Lists names functions) :
    names.filterMap (found bus) = functions.filterMap fun f => found bus f.name := by
  have hfilter : (names.filter fun name => name.head? ≠ some 0x2E).filterMap (found bus) =
      names.filterMap (found bus) := by
    rw [List.filterMap_filter]
    refine List.filterMap_congr fun name _ => ?_
    by_cases hhidden : name.head? = some 0x2E
    · simp [hhidden, found, pciDevice_hidden]
    · simp [hhidden]
  rw [← hfilter, h, List.filterMap_map]
  rfl

/-- The records are those of the functions whose names are understood. -/
theorem address_found (hreadable : ∀ f ∈ functions, Readable bus f.name)
    (hok : ∀ f ∈ functions, f.address.domain < 2 ^ 16 → ¬ Refused bus f.name) :
    (functions.filterMap fun f => found bus f.name).map PciDevice.address =
      (functions.filter fun f => f.address.domain < 2 ^ 16).map PciFunction.parts := by
  induction functions with
  | nil => rfl
  | cons f functions ih =>
    rw [List.forall_mem_cons] at hreadable hok
    have hmore := ih hreadable.2 hok.2
    rw [List.filterMap_cons, List.filter_cons]
    by_cases hdomain : f.address.domain < 2 ^ 16
    · rcases pciDevice_cases hdomain hreadable.1 with ⟨hrefused, -⟩ | ⟨-, d, hd, haddress⟩
      · exact absurd hrefused (hok.1 hdomain)
      · rw [found, hd, if_pos (decide_eq_true hdomain), List.map_cons, List.map_cons, hmore,
          haddress]
    · rw [found, pciDevice_of_domain_large hdomain, if_neg (by simpa using hdomain)]
      exact hmore

/-- The rounds of the loop all end if no attribute is refused. -/
theorem exists_pciDevice_iff (hlists : Lists names functions)
    (hreadable : ∀ f ∈ functions, Readable bus f.name) :
    (∀ name ∈ names, ∃ dev, pciDevice bus name = .ok dev) ↔
      ∀ f ∈ functions, f.address.domain < 2 ^ 16 → ¬ Refused bus f.name := by
  constructor
  · intro h f hf hdomain hrefused
    obtain ⟨dev, hdev⟩ := h f.name (hlists.mem_names hf)
    rcases pciDevice_cases hdomain (hreadable f hf) with ⟨-, e, he⟩ | ⟨hnot, -⟩
    · rw [he] at hdev
      cases hdev
    · exact hnot hrefused
  · intro h name hname
    rcases hlists.cases hname with hhidden | ⟨f, hf, rfl⟩
    · exact ⟨none, pciDevice_hidden hhidden⟩
    · by_cases hdomain : f.address.domain < 2 ^ 16
      · rcases pciDevice_cases hdomain (hreadable f hf) with ⟨hrefused, -⟩ | ⟨-, d, hd, -⟩
        · exact absurd hrefused (h f hf hdomain)
        · exact ⟨some d, hd⟩
      · exact ⟨none, pciDevice_of_domain_large hdomain⟩

/-- The outcome of an enumeration of readable functions. -/
theorem pciDevices_eq_ok {sorter : Sorter comparePciDevices} {readError : Option ℤ}
    {out : List PciDevice} (hdir : bus.directory = .listing names readError)
    (hlists : Lists names functions) (hreadable : ∀ f ∈ functions, Readable bus f.name) :
    pciDevices sorter bus = .ok out ↔ readError = none ∧
      (∀ f ∈ functions, f.address.domain < 2 ^ 16 → ¬ Refused bus f.name) ∧
      out = sorter.sort (functions.filterMap fun f => found bus f.name) := by
  rw [pciDevices, hdir]
  simp only [bind_eq_ok, foldlM_addPciDevice_eq_ok, List.nil_append, hlists.filterMap_found,
    exists_pciDevice_iff hlists hreadable]
  cases readError with
  | some errno => simp [failErrno]
  | none => simp [eq_comm, and_comm]

/-- No two names give the same address. -/
def DistinctAddresses (functions : List PciFunction) : Prop :=
  ∀ f ∈ functions, ∀ g ∈ functions, ∀ a, parsePciBdf f.name = some a →
    parsePciBdf g.name = some a → f.name = g.name

theorem distinctAddresses (functions : List PciFunction) : DistinctAddresses functions := by
  have haddress : ∀ {f : PciFunction} {a : PciAddress}, parsePciBdf f.name = some a →
      f.address = a := by
    intro f a h
    rw [parsePciBdf_name] at h
    split_ifs at h
    exact Option.some.inj h
  intro f _ g _ a hf hg
  rw [PciFunction.name, PciFunction.name, haddress hf, haddress hg]

/-- The records are complete if no function is passed over. -/
theorem complete_of_domains {sorter : Sorter comparePciDevices} {readError : Option ℤ}
    (hdir : bus.directory = .listing names readError) (hlists : Lists names functions)
    (hreadable : ∀ f ∈ functions, Readable bus f.name)
    (hdomains : ∀ f ∈ functions, f.address.domain < 2 ^ 16) :
    Complete functions (pciDevices sorter bus) := by
  refine complete_of_forall_ok fun out hout => ?_
  obtain ⟨-, hok, rfl⟩ := (pciDevices_eq_ok hdir hlists hreadable).mp hout
  have hall : (functions.filter fun f => f.address.domain < 2 ^ 16) = functions :=
    List.filter_eq_self.mpr fun f hf => decide_eq_true (hdomains f hf)
  refine ((sorter.perm _).map _).trans ?_
  rw [address_found hreadable hok, hall]

/-- A list of records is too short if a function is passed over. -/
theorem domains_of_complete {sorter : Sorter comparePciDevices} {readError : Option ℤ}
    (hdir : bus.directory = .listing names readError) (hlists : Lists names functions)
    (hreadable : ∀ f ∈ functions, Readable bus f.name) (hread : readError = none)
    (hok : ∀ f ∈ functions, f.address.domain < 2 ^ 16 → ¬ Refused bus f.name)
    (h : Complete functions (pciDevices sorter bus)) :
    ∀ f ∈ functions, f.address.domain < 2 ^ 16 := by
  have houtcome : pciDevices sorter bus =
      .ok (sorter.sort (functions.filterMap fun f => found bus f.name)) :=
    (pciDevices_eq_ok hdir hlists hreadable).mpr ⟨hread, hok, rfl⟩
  rw [houtcome] at h
  rcases h with ⟨e, he⟩ | ⟨devices, hdevices, hperm⟩
  · cases he
  · cases hdevices
    have hlength := (((sorter.perm _).map PciDevice.address).symm.trans hperm).length_eq
    rw [address_found hreadable hok, List.length_map, List.length_map,
      List.length_filter_eq_length_iff] at hlength
    exact fun f hf => of_decide_eq_true (hlength f hf)

theorem pci_devices (sorter : Sorter comparePciDevices) {readError : Option ℤ}
    (hdir : bus.directory = .listing names readError) (hlists : Lists names functions)
    (hreadable : ∀ f ∈ functions, Readable bus f.name) :
    Complete functions (pciDevices sorter bus) ∧ DistinctAddresses functions ↔
      readError ≠ none ∨ (∀ f ∈ functions, f.address.domain < 2 ^ 16) ∨
        ∃ f ∈ functions, f.address.domain < 2 ^ 16 ∧ Refused bus f.name := by
  constructor
  · rintro ⟨hcomplete, -⟩
    by_cases hread : readError = none
    · by_cases hok : ∀ f ∈ functions, f.address.domain < 2 ^ 16 → ¬ Refused bus f.name
      · exact .inr (.inl (domains_of_complete hdir hlists hreadable hread hok hcomplete))
      · simp only [not_forall, not_not, exists_prop] at hok
        exact .inr (.inr hok)
    · exact .inl hread
  · intro h
    refine ⟨?_, distinctAddresses functions⟩
    rcases h with hread | hdomains | ⟨f, hf, hdomain, hrefused⟩
    · refine complete_of_forall_ok fun out hout => ?_
      exact absurd ((pciDevices_eq_ok hdir hlists hreadable).mp hout).1 hread
    · exact complete_of_domains hdir hlists hreadable hdomains
    · refine complete_of_forall_ok fun out hout => ?_
      obtain ⟨-, hok, -⟩ := (pciDevices_eq_ok hdir hlists hreadable).mp hout
      exact absurd hrefused (hok f hf hdomain)

end Completeness

section Single

/-- What the kernel shows of a storage controller without a driver. -/
def singleFile (file : List UInt8) : FileEntry :=
  if file = ascii "vendor" then .content (ascii "0x8086" ++ [0x0A])
  else if file = ascii "device" then .content (ascii "0x9a0b" ++ [0x0A])
  else if file = ascii "class" then .content (ascii "0x010601" ++ [0x0A])
  else .absent

/-- A system with this one function. -/
def singleBus (f : PciFunction) : PciBus where
  directory := .listing [ascii ".", ascii "..", f.name] none
  files path := singleFile (path.drop (attributePath f.name []).length)
  links _ := .error enoent

theorem lists_single (f : PciFunction) : Lists [ascii ".", ascii "..", f.name] [f] := by
  rw [Lists, List.filter_cons_of_neg (by decide), List.filter_cons_of_neg (by decide),
    List.filter_cons_of_pos (by simpa using head?_name f)]
  rfl

/-- Every function with a name of that length is shown so. -/
theorem readable_of_files {bus : PciBus} {name : Path}
    (hfiles : bus.files = fun path => singleFile (path.drop (attributePath name []).length))
    (hlinks : ∀ path, bus.links path = .error enoent) : Readable bus name := by
  have hread : ∀ file, readFile bus name file = readTextFile singleFile file (1024 * 1024) := by
    intro file
    have hpath : attributePath name file = attributePath name [] ++ file := by
      simp [attributePath]
    have hfile : bus.files (attributePath name file) = singleFile file := by
      rw [hfiles, hpath]
      exact congrArg singleFile (List.drop_left)
    rw [readFile, readTextFile, readTextFile, hfile]
  exact
    { vendor := ⟨_, by rw [hread]; rfl⟩
      device := ⟨_, by rw [hread]; rfl⟩
      class_ := ⟨_, by rw [hread]; rfl⟩
      subsystemVendor := .inr ⟨_, by rw [hread]; rfl, rfl⟩
      subsystemDevice := .inr ⟨_, by rw [hread]; rfl, rfl⟩
      driver := .inr ⟨enoent, by simp, hlinks _⟩ }

theorem readable_single (f : PciFunction) : Readable (singleBus f) f.name :=
  readable_of_files rfl fun _ => rfl

/-- A device in the domain of the machine, and one behind a controller that opens its own. -/
def rootDevice : PciFunction where
  address := ⟨0, 0, 0x17, 0⟩
  domain_lt := by decide
  bus_lt := by decide
  device_lt := by decide
  function_lt := by decide

def volumeDevice : PciFunction where
  address := ⟨0x10000, 0xE0, 0x1D, 0⟩
  domain_lt := by decide
  bus_lt := by decide
  device_lt := by decide
  function_lt := by decide

/-- Another device in the domain of the machine. -/
def secondDevice : PciFunction where
  address := ⟨0, 3, 0, 1⟩
  domain_lt := by decide
  bus_lt := by decide
  device_lt := by decide
  function_lt := by decide

/-- A system with both, listed from the later one on. -/
def rootBus : PciBus :=
  { singleBus rootDevice with
    directory := .listing [ascii ".", secondDevice.name, ascii "..", rootDevice.name] none }

/-- Both devices of a machine are listed. -/
theorem pci_devices_root :
    Complete [secondDevice, rootDevice]
      (pciDevices (Sorter.merge strictWeak_comparePciDevices) rootBus) ∧
      DistinctAddresses [secondDevice, rootDevice] := by
  have hlists : Lists [ascii ".", secondDevice.name, ascii "..", rootDevice.name]
      [secondDevice, rootDevice] := by
    rw [Lists, List.filter_cons_of_neg (by decide),
      List.filter_cons_of_pos (by simpa using head?_name secondDevice),
      List.filter_cons_of_neg (by decide),
      List.filter_cons_of_pos (by simpa using head?_name rootDevice)]
    rfl
  have hlength : (attributePath rootDevice.name []).length =
      (attributePath secondDevice.name []).length := by
    simp [attributePath, PciFunction.name, PciAddress.name, rootDevice, secondDevice,
      paddedLowerHex, lowerHexadecimal, decimal, ofNat, List.leftpad]
  refine (pci_devices _ rfl hlists ?_).mpr (.inr (.inl (by decide)))
  rw [List.forall_mem_cons, List.forall_mem_singleton]
  refine ⟨readable_of_files ?_ fun _ => rfl, readable_of_files rfl fun _ => rfl⟩
  rw [← hlength]
  rfl

/-- The list of a machine with a device in such a domain is empty. -/
theorem volume_device_missing :
    volumeDevice.name = ascii "10000:e0:1d.0" ∧
      pciDevices (Sorter.merge strictWeak_comparePciDevices) (singleBus volumeDevice) = .ok [] ∧
      ¬ Complete [volumeDevice]
        (pciDevices (Sorter.merge strictWeak_comparePciDevices) (singleBus volumeDevice)) := by
  have hdomain : ¬ volumeDevice.address.domain < 2 ^ 16 := by decide
  have houtcome : pciDevices (Sorter.merge strictWeak_comparePciDevices)
      (singleBus volumeDevice) = .ok [] := by
    refine (pciDevices_eq_ok rfl (lists_single volumeDevice) ?_).mpr ⟨rfl, ?_, ?_⟩
    · rw [List.forall_mem_singleton]
      exact readable_single volumeDevice
    · rw [List.forall_mem_singleton]
      exact fun h => absurd h hdomain
    · have hfound : found (singleBus volumeDevice) volumeDevice.name = none := by
        rw [found, pciDevice_of_domain_large hdomain]
      rw [List.filterMap_cons, hfound]
      exact (List.perm_nil.mp (Sorter.perm _ [])).symm
  refine ⟨?_, houtcome, ?_⟩
  · simp [PciFunction.name, PciAddress.name, volumeDevice, paddedLowerHex, lowerHexadecimal, decimal,
      ofNat, List.leftpad]
    decide
  · rw [houtcome]
    rintro (⟨e, he⟩ | ⟨devices, hdevices, hperm⟩)
    · cases he
    · cases hdevices
      simpa using hperm.length_eq

end Single

end Syscape.Hardware
