import EsdumanOS.Proofs.Image

/-!
# The headers of an executable

`elf_validate_image` reads inside the image whatever it holds, and what it accepts has a program
header table and segments inside the image. The segments of an accepted image, loaded page by page,
are the image.
-/

namespace EsdumanOS

open List Phdr

variable {image : List UInt8} {off n i : ℕ} {h : Ehdr} {ph : Phdr} {phs : List Phdr} {m : Vm}
  {addr : ℕ}

section Lists

variable {α β : Type*} {f : α → Option β}

lemma mapM_exists {P : β → Prop} : ∀ {l : List α}, (∀ x ∈ l, ∃ y, f x = some y ∧ P y) →
    ∃ ys, l.mapM f = some ys ∧ ∀ y ∈ ys, P y
  | [], _ => ⟨[], rfl, by simp⟩
  | x :: l, ha => by
    obtain ⟨y, hy, hP⟩ := ha x mem_cons_self
    obtain ⟨ys, hys, hPs⟩ := mapM_exists fun z hz => ha z (mem_cons_of_mem x hz)
    refine ⟨y :: ys, by simp [mapM_cons, hy, hys], fun z hz => ?_⟩
    rcases mem_cons.1 hz with rfl | hz
    · exact hP
    · exact hPs z hz

lemma mapM_map {g : α → β} : ∀ {l : List α}, (∀ x ∈ l, f x = some (g x)) →
    l.mapM f = some (l.map g)
  | [], _ => rfl
  | x :: l, ha => by
    have hr := mapM_map fun z hz => ha z (mem_cons_of_mem x hz)
    simp [mapM_cons, ha x mem_cons_self, hr]

end Lists

lemma readWord_some (ho : off + 4 ≤ image.length) : ∃ w, readWord image off = some w := by
  unfold readWord
  rw [if_pos ho]
  exact ⟨_, rfl⟩

lemma readHalf_some (ho : off + 2 ≤ image.length) : ∃ w, readHalf image off = some w := by
  unfold readHalf
  rw [if_pos ho]
  exact ⟨_, rfl⟩

lemma readEhdr_some (hl : sizeofEhdr ≤ image.length) : ∃ h, readEhdr image = some h := by
  have hh : ∀ off, off + 2 ≤ 52 → ∃ w, readHalf image off = some w :=
    fun off ho => readHalf_some (ho.trans hl)
  have hw : ∀ off, off + 4 ≤ 52 → ∃ w, readWord image off = some w :=
    fun off ho => readWord_some (ho.trans hl)
  obtain ⟨type, ht⟩ := hh 16 (by omega)
  obtain ⟨machine, hm⟩ := hh 18 (by omega)
  obtain ⟨version, hv⟩ := hw 20 (by omega)
  obtain ⟨entry, hen⟩ := hw 24 (by omega)
  obtain ⟨phoff, hph⟩ := hw 28 (by omega)
  obtain ⟨ehsize, he⟩ := hh 40 (by omega)
  obtain ⟨phentsize, hp⟩ := hh 42 (by omega)
  obtain ⟨phnum, hpn⟩ := hh 44 (by omega)
  simp [readEhdr, ht, hm, hv, hen, hph, he, hp, hpn]

lemma readPhdr_some (hof : off + sizeofPhdr ≤ image.length) :
    ∃ ph, readPhdr image off = some ph := by
  unfold sizeofPhdr at hof
  have hw : ∀ k, k + 4 ≤ 32 → ∃ w, readWord image (off + k) = some w :=
    fun k hk => readWord_some (by omega)
  obtain ⟨type, ht⟩ := hw 0 (by omega)
  obtain ⟨offset, ho⟩ := hw 4 (by omega)
  obtain ⟨vaddr, hv⟩ := hw 8 (by omega)
  obtain ⟨filesz, hf⟩ := hw 16 (by omega)
  obtain ⟨memsz, hm⟩ := hw 20 (by omega)
  obtain ⟨flags, hfl⟩ := hw 24 (by omega)
  rw [Nat.add_zero] at ht
  simp [readPhdr, ht, ho, hv, hf, hm, hfl]

lemma validatePhdrs_isSome : ∀ (n : ℕ) {i : ℕ} {b : Bool},
    h.phoff + (i + n) * sizeofPhdr ≤ image.length → (validatePhdrs image h n i b).isSome = true
  | 0, _, _, _ => rfl
  | n + 1, i, b, htable => by
    have hi : h.phoff + i * sizeofPhdr + sizeofPhdr ≤ image.length := by
      unfold sizeofPhdr at *
      omega
    obtain ⟨ph, hp⟩ := readPhdr_some hi
    have hr : ∀ b, (validatePhdrs image h n (i + 1) b).isSome = true := fun b =>
      validatePhdrs_isSome n (by rwa [Nat.add_right_comm i 1 n])
    unfold validatePhdrs
    rw [hp]
    dsimp only [Option.bind_eq_bind, Option.bind_some]
    split_ifs
    · exact hr b
    · rfl
    · rfl
    · exact hr _

lemma elfValidateImage_isSome (image : List UInt8) : (elfValidateImage image).isSome = true := by
  unfold elfValidateImage
  split_ifs with hs
  · rfl
  obtain ⟨h, hh⟩ := readEhdr_some (not_lt.1 hs)
  rw [hh]
  dsimp only [Option.bind_eq_bind, Option.bind_some]
  split_ifs with hsu htable
  · rfl
  · rfl
  refine validatePhdrs_isSome h.phnum ?_
  unfold sizeofPhdr at *
  omega

lemma validatePhdrs_ok : ∀ (n : ℕ) {i : ℕ} {b : Bool},
    validatePhdrs image h n i b = some .ok → ∀ j, i ≤ j → j < i + n →
    ∃ ph, readPhdr image (h.phoff + j * sizeofPhdr) = some ph ∧
      (ph.isLoad = true → ph.inFile image.length = true ∧ ph.inUser = true)
  | 0, _, _, _, j, hlo, hhi => absurd hhi (by omega)
  | n + 1, i, b, hok, j, hlo, hhi => by
    unfold validatePhdrs at hok
    cases hph : readPhdr image (h.phoff + i * sizeofPhdr) with
    | none => simp [hph] at hok
    | some ph =>
      rw [hph] at hok
      dsimp only [Option.bind_eq_bind, Option.bind_some] at hok
      have hh : ∃ b', validatePhdrs image h n (i + 1) b' = some .ok ∧
          (ph.isLoad = true → ph.inFile image.length = true ∧ ph.inUser = true) := by
        split_ifs at hok with hload hfile hu
        · exact ⟨b, hok, fun hl => absurd hload (by simp [hl])⟩
        · exact absurd hok (by simp)
        · exact absurd hok (by simp)
        · exact ⟨_, hok, fun _ => ⟨by simpa using hfile, by simpa using hu⟩⟩
      obtain ⟨b', hr, hp⟩ := hh
      rcases Nat.eq_or_lt_of_le hlo with heq | hlt
      · exact ⟨ph, heq ▸ hph, hp⟩
      · exact validatePhdrs_ok n hr j hlt (by omega)

lemma programHeaders_ok (hok : elfValidateImage image = some .ok) :
    ∃ phs, programHeaders image = some phs ∧ ∀ ph ∈ phs, ph.isLoad = true →
      ph.inFile image.length = true ∧ ph.inUser = true := by
  unfold elfValidateImage at hok
  split_ifs at hok with hs
  · exact absurd hok (by simp)
  obtain ⟨h, hh⟩ := readEhdr_some (not_lt.1 hs)
  rw [hh] at hok
  dsimp only [Option.bind_eq_bind, Option.bind_some] at hok
  split_ifs at hok with hsu htable
  · exact absurd hok (by simp)
  · exact absurd hok (by simp)
  unfold programHeaders
  rw [hh]
  refine mapM_exists fun j hj => validatePhdrs_ok h.phnum hok j (Nat.zero_le j) ?_
  rw [Nat.zero_add]
  exact mem_range.1 hj

lemma Phdr.inFile_iff {len : ℕ} : ph.inFile len = true ↔
    ph.filesz ≤ ph.memsz ∧ ph.offset ≤ len ∧ ph.offset + ph.filesz ≤ len := by
  simp [inFile]
  omega

lemma Phdr.memsz_ne_zero (hu : ph.inUser = true) : ph.memsz ≠ 0 := by
  simp [inUser] at hu
  exact hu.1.1.1

lemma imageSegments_ok (hok : elfValidateImage image = some .ok)
    (hp : programHeaders image = some phs) :
    imageSegments image = some ((phs.filter isLoad).map (toSegment image)) := by
  obtain ⟨phs', hp', ha⟩ := programHeaders_ok hok
  obtain rfl : phs = phs' := Option.some.inj (hp.symm.trans hp')
  unfold imageSegments
  rw [hp]
  refine mapM_map fun ph hph => ?_
  obtain ⟨hmem, hload⟩ := mem_filter.1 hph
  unfold Phdr.segment
  rw [if_pos (Or.inr (Phdr.inFile_iff.1 (ha ph hmem hload).1).2.2)]

lemma Phdr.covers_iff : ph.covers addr = true ↔ ph.vaddr ≤ addr ∧ addr < ph.vaddr + ph.memsz := by
  simp [covers]

lemma lastSegment_map (phs : List Phdr) (addr : ℕ) :
    lastSegment (phs.map (toSegment image)) addr =
      (lastCovering phs addr).map (toSegment image) := by
  unfold lastSegment lastCovering
  rw [← map_reverse, find?_map]
  rfl

lemma mem_of_lastCovering (hl : lastCovering phs addr = some ph) :
    ph ∈ phs ∧ ph.covers addr = true := by
  have hc := find?_some hl
  exact ⟨mem_reverse.1 (mem_of_find?_eq_some hl), hc⟩

lemma toSegment_bytes (hfile : ph.inFile image.length = true) (hc : ph.covers addr = true) :
    some ((ph.toSegment image).bytes addr) =
      if addr < ph.vaddr + ph.filesz then image[ph.offset + (addr - ph.vaddr)]? else some 0 := by
  obtain ⟨-, -, hl⟩ := inFile_iff.1 hfile
  obtain ⟨hlo, -⟩ := covers_iff.1 hc
  unfold toSegment
  dsimp only
  split_ifs with hi
  · have hp : ph.offset + (addr - ph.vaddr) < image.length := by omega
    rw [fileBytes, getD_eq_getElem?_getD, getElem?_eq_getElem hp, Option.getD_some]
  · rfl

lemma ImageLoaded.loadedAs (hm : ImageLoaded (phs.map (toSegment image)) m)
    (ha : ∀ ph ∈ phs, ph.inFile image.length = true ∧ ph.inUser = true) :
    LoadedAs image phs m := by
  have hpages : ∀ ph ∈ phs, ∀ u, u ∈ (ph.toSegment image).pages ↔
      ∃ addr, ph.covers addr = true ∧ addr / pageSize = u := fun ph hp u =>
    Segment.mem_pages (g := ph.toSegment image) (memsz_ne_zero (ha ph hp).2)
  have hmem : ∀ ph ∈ phs, ph.toSegment image ∈ phs.map (toSegment image) :=
    fun ph hp => mem_map_of_mem hp
  refine ⟨fun addr ph hl => ?_, fun ph hp addr hc => ?_, fun ph hp addr hc => ?_⟩
  · obtain ⟨hp, hc⟩ := mem_of_lastCovering hl
    rw [hm.bytes addr (ph.toSegment image) (by rw [lastSegment_map, hl]; rfl)]
    exact toSegment_bytes (ha ph hp).1 hc
  · exact hm.access _ (hmem ph hp) _ ((hpages ph hp _).2 ⟨addr, hc, rfl⟩)
  · rw [hm.writable _ (hmem ph hp) (memsz_ne_zero (ha ph hp).2) _
      ((hpages ph hp _).2 ⟨addr, hc, rfl⟩)]
    constructor
    · rintro ⟨g, hg, -, hw, hu⟩
      obtain ⟨q, hq, rfl⟩ := mem_map.1 hg
      exact ⟨q, hq, hw, (hpages q hq _).1 hu⟩
    · rintro ⟨q, hq, hw, hu⟩
      exact ⟨q.toSegment image, hmem q hq, memsz_ne_zero (ha q hq).2, hw, (hpages q hq _).2 hu⟩

end EsdumanOS
