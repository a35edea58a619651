import EsdumanOS.Pathname
import EsdumanOS.Proofs.DirTree

/-!
# `pwd` and `cd`

Each name of a path leads one directory down, unless it is `.` or `..`, which `sys_mkdir` and
`sys_mv_file` accept (`walk_depth`). So the string of `sys_getcwd` leads back exactly if no
directory on the way has such a name.
-/

namespace EsdumanOS

open Lib List Sessions DirEntry

variable {path : List Char}

namespace Dirs

variable {t : Dirs} {e : DirEnv} {i k p : ℕ} {l : List ℕ}

/-- A name that a path can have between two slashes. -/
structure Component (n : Name) : Prop where
  nonempty : n ≠ []
  noSlash : '/' ∉ n
  fits : n.length < maxFilename

/-- A table as `sys_mkdir` and `sys_mv_file` leave it. -/
structure Neat (t : Dirs) : Prop where
  rooted : t.Rooted
  entries : ∀ name parentId, t.OneEntry name parentId
  names : ∀ i, t.Used i → Component (t.table i).filename
  noZero : ¬ t.Used 0

section Tables

variable {name : Name} {parentId : ℕ}

lemma neat_of_empty (h : ∀ i, ¬ t.Used i) : t.Neat := by
  have hno : ∀ i < t.maxEntries, ∀ name parentId,
      (t.table i).named parentId name = true → False := by
    intro i hi name parentId hn
    simp only [named, Bool.and_eq_true, bne_iff_ne] at hn
    exact h i ⟨hi, hn.1.1⟩
  refine ⟨⟨fun i hi => absurd hi (h i), fun i hi => absurd hi (h i)⟩, fun name parentId => ?_,
    fun i hi => absurd hi (h i), h 0⟩
  exact ⟨fun i hi _ _ hn _ => (hno i hi _ _ hn).elim, fun i hi hn => (hno i hi _ _ hn).elim⟩

lemma Neat.flag (h : t.Neat) (hi : t.Used i) : (t.table i).isUsed = 1 := by
  refine (h.entries (t.table i).filename (t.table i).parentId).flag i hi.1 ?_
  simp [named, hi.2]

/-- An entry whose name no other slot has may be written. -/
lemma oneEntry_set (h : ∀ name parentId, t.OneEntry name parentId) {d : DirEntry}
    (hd : d.isUsed = 1) (hfresh : ∀ j < t.maxEntries, j ≠ k →
      (t.table j).named d.parentId d.filename = false) (name : Name) (parentId : ℕ) :
    (t.set k d).OneEntry name parentId := by
  have hs : ∀ j < t.maxEntries, j ≠ k → d.named parentId name = true →
      (t.table j).named parentId name = true → False := by
    intro j hj hjk hn hnj
    simp only [named, Bool.and_eq_true, beq_iff_eq] at hn
    rw [← hn.1.2, ← hn.2, hfresh j hj hjk] at hnj
    simp at hnj
  refine ⟨fun i hi j hj hni hnj => ?_, fun i hi hn => ?_⟩
  · by_cases hik : i = k
    · by_cases hjk : j = k
      · rw [hik, hjk]
      · subst hik
        exact (hs j hj hjk (by simpa [Dirs.set] using hni)
          (by simpa [Dirs.set, hjk] using hnj)).elim
    · by_cases hjk : j = k
      · subst hjk
        exact (hs i hi hik (by simpa [Dirs.set] using hnj)
          (by simpa [Dirs.set, hik] using hni)).elim
      · exact (h name parentId).single i hi j hj (by simpa [Dirs.set, hik] using hni)
          (by simpa [Dirs.set, hjk] using hnj)
  · by_cases hik : i = k
    · simpa [Dirs.set, hik] using hd
    · simpa [Dirs.set, hik] using (h name parentId).flag i hi (by simpa [Dirs.set, hik] using hn)

lemma Neat.mkdir (h : t.Neat) (hn : Component name) : (t.mkdir e name parentId).2.Neat := by
  have hr : (t.mkdir e name parentId).2.Rooted := mkdir_grows.rooted h.rooted
  rcases mkdir_cases t e name parentId with heq | ⟨k, hk, -, hne, heq⟩
  · rwa [heq]
  · rw [heq] at hr ⊢
    have hk0 := freeSlot_pos hk
    refine ⟨hr, oneEntry_set h.entries rfl fun j hj _ => find_none hne hj, fun i hi => ?_, ?_⟩
    · by_cases hik : i = k
      · simpa [Dirs.set, hik, newDirEntry] using hn
      · simpa [Dirs.set, hik] using h.names i ((set_used hik).1 hi)
    · exact fun h0 => h.noZero ((set_used (by omega)).1 h0)

lemma Neat.rename (h : t.Neat) {oldName newName : Name} (hn : Component newName) :
    (t.rename e oldName newName parentId).2.Neat := by
  have hr : (t.rename e oldName newName parentId).2.Rooted := (rename_grows _ _).rooted h.rooted
  rcases rename_cases t e oldName newName parentId with heq | ⟨k, hk, hne, heq⟩
  · rwa [heq]
  · rw [heq] at hr ⊢
    obtain ⟨hkm, ho⟩ := find_some hk
    simp only [named1, Bool.and_eq_true, beq_iff_eq] at ho
    obtain ⟨⟨hu, hp⟩, -⟩ := ho
    refine ⟨hr, oneEntry_set h.entries hu fun j hj _ => ?_, fun i hi => ?_, fun h0 => ?_⟩
    · -- a used entry of the new name would have flag 1, and the scan would have found it
      by_contra hj'
      have hna : (t.table j).named parentId newName = true := by simpa [hp] using hj'
      have hf := (h.entries newName parentId).flag j hj hna
      have := find_none hne hj
      rw [(named1_iff _).2 ⟨hna, hf⟩] at this
      simp at this
    · by_cases hik : i = k
      · simpa [Dirs.set, hik] using hn
      · simpa [Dirs.set, hik] using h.names i ((set_used hik).1 hi)
    · by_cases h0k : 0 = k
      · subst h0k
        exact h.noZero ⟨hkm, by omega⟩
      · exact h.noZero ((set_used h0k).1 h0)

end Tables

lemma resolve_token : ∀ (path : List Char) {current : ℕ} {token : Name} {r : ℕ × Name},
    '/' ∉ token → token.length < maxFilename → t.resolve path current token = .ok r →
      '/' ∉ r.2 ∧ r.2.length < maxFilename
  | [], current, token, r, hs, hl, hr => by
    simp only [Dirs.resolve, Except.ok.injEq] at hr
    exact hr ▸ ⟨hs, hl⟩
  | c :: path, current, token, r, hs, hl, hr => by
    rw [Dirs.resolve] at hr
    split_ifs at hr with hc hle
    · rcases hn : t.enter current token with err | next
      · simp [hn] at hr
      · rw [hn] at hr
        exact resolve_token path (by simp) (by simp [maxFilename]) hr
    · refine resolve_token path ?_ ?_ hr
      · simp [hs, Ne.symm hc]
      · simp only [length_append, length_singleton]
        omega

lemma resolvePath_component {cwd : ℕ} {r : ℕ × Name}
    (hr : t.resolvePath path cwd = .ok r) (hne : r.2 ≠ []) : Component r.2 := by
  have he : '/' ∉ ([] : Name) ∧ ([] : Name).length < maxFilename := by simp [maxFilename]
  unfold Dirs.resolvePath at hr
  split at hr
  · simp at hr
  · obtain ⟨hs, hl⟩ := resolve_token _ he.1 he.2 hr
    exact ⟨hne, hs, hl⟩
  · obtain ⟨hs, hl⟩ := resolve_token _ he.1 he.2 hr
    exact ⟨hne, hs, hl⟩

lemma resolve_name (rest : List Char) (current : ℕ) : ∀ (n token : Name), '/' ∉ n →
    token.length + n.length < maxFilename →
      t.resolve (n ++ rest) current token = t.resolve rest current (token ++ n)
  | [], token, _, _ => by simp
  | c :: n, token, hs, hl => by
    simp only [mem_cons, not_or] at hs
    simp only [length_cons] at hl
    rw [cons_append, Dirs.resolve, if_neg (Ne.symm hs.1), if_neg (by omega),
      resolve_name rest current n (token ++ [c]) hs.2 (by simp; omega)]
    simp

def trail (names : List Name) : List Char := names.flatMap fun n => '/' :: n

def pathOf (names : List Name) : List Char := if names = [] then ['/'] else trail names

def walk (t : Dirs) : ℕ → List Name → Except Errno ℕ
  | current, [] => .ok current
  | current, n :: names =>
    match t.enter current n with
    | .error err => .error err
    | .ok next => walk t next names

lemma walk_concat (n : Name) : ∀ (names : List Name) (current : ℕ),
    t.walk current (names ++ [n]) =
      match t.walk current names with
      | .error err => .error err
      | .ok next => t.enter next n
  | [], current => by
    rcases h : t.enter current n with err | next <;> simp [walk, h]
  | m :: names, current => by
    rcases h : t.enter current m with err | next
    · simp [walk, h]
    · simp only [cons_append, walk, h]
      exact walk_concat n names next

/-- `resolve_path` and the lookup of its last name together enter one name after the other. -/
lemma resolve_trail : ∀ (names : List Name) (current : ℕ) (token : Name),
    (∀ n ∈ names, Component n) →
      (match t.resolve (trail names) current token with
        | .error err => .error err
        | .ok (parent, basename) => t.enter parent basename) = t.walk current (token :: names)
  | [], current, token, _ => by
    rcases h : t.enter current token with err | next <;> simp [trail, Dirs.resolve, walk, h]
  | n :: names, current, token, hc => by
    have hn := hc n (by simp)
    have hs : trail (n :: names) = '/' :: (n ++ trail names) := by simp [trail]
    rw [hs, Dirs.resolve, if_pos rfl, walk]
    rcases h : t.enter current token with err | next
    · rfl
    · simp only
      rw [resolve_name _ _ n [] hn.noSlash (by simpa using hn.fits)]
      exact resolve_trail names next n fun m hm => hc m (by simp [hm])

section

variable (h : t.Neat)
include h

lemma Neat.parentOf (hp : t.Place p) :
    (p = 0 ∧ t.parentOf p = Option.none) ∨ (p ≠ 0 ∧ t.parentOf p = some (t.table p).parentId) := by
  have hf : ∀ k, k < t.maxEntries → ((t.table k).entryId == p &&
      (t.table k).fileType == ftDir && (t.table k).isUsed == 1) = true → k = p := by
    intro k hk ht
    simp only [Bool.and_eq_true, beq_iff_eq] at ht
    rw [← h.rooted.ids k ⟨hk, by omega⟩, ht.1.1]
  by_cases h0 : p = 0
  · subst h0
    refine .inl ⟨rfl, ?_⟩
    have hn : t.find (fun d => d.entryId == 0 && d.fileType == ftDir && d.isUsed == 1) =
        Option.none := by
      refine firstIdx_eq_none.2 fun k hk => ?_
      by_contra ht
      rw [Bool.not_eq_false] at ht
      have hk0 := hf k hk ht
      subst hk0
      refine h.noZero ⟨hk, ?_⟩
      simp only [Bool.and_eq_true, beq_iff_eq] at ht
      omega
    rw [Dirs.parentOf, hn]
    rfl
  · obtain hd : t.Dir p := hp.resolve_left h0
    refine .inr ⟨h0, ?_⟩
    have hs : t.find (fun d => d.entryId == p && d.fileType == ftDir && d.isUsed == 1) =
        some p := firstIdx_of_unique hd.1.1 (by simp [h.rooted.ids p hd.1, hd.2, h.flag hd.1]) hf
    rw [Dirs.parentOf, hs]
    rfl

lemma Neat.resolveDir {gid cwd parent : ℕ} {basename : Name}
    (hr : t.resolvePath path cwd = .ok (parent, basename)) (hp : t.Place parent) :
    t.resolveDirFromCwd 0 gid cwd path = t.enter parent basename := by
  have hro : ∀ id, t.checkVfsAccess 0 gid id false = true := fun id => by simp [checkVfsAccess]
  unfold Dirs.resolveDirFromCwd Dirs.enter
  rw [hr]
  simp only [hro, Bool.not_true, Bool.false_eq_true, if_false]
  split_ifs with hd hu h0
  · rfl
  · subst h0
    rcases h.parentOf hp with ⟨-, hpa⟩ | ⟨hne, -⟩
    · simp [hpa]
    · exact absurd rfl hne
  · rcases h.parentOf hp with ⟨heq, -⟩ | ⟨-, hpa⟩
    · exact absurd heq h0
    · simp [hpa]
  · rcases t.entryIdx basename parent with _ | idx
    · rfl
    · dsimp only
      split_ifs <;> rfl

lemma Neat.resolveDir_pathOf (names : List Name) (hc : ∀ n ∈ names, Component n)
    (gid cwd : ℕ) : t.resolveDirFromCwd 0 gid cwd (pathOf names) = t.walk 0 names := by
  rcases names with _ | ⟨n, names⟩
  · have hr : t.resolvePath (pathOf []) cwd = .ok (0, []) := rfl
    rw [h.resolveDir hr (.inl rfl)]
    simp [Dirs.enter, walk]
  · have hn := hc n (by simp)
    have hp : t.resolvePath (pathOf (n :: names)) cwd = t.resolve (trail names) 0 n := by
      have hs : pathOf (n :: names) = '/' :: (n ++ trail names) := by simp [pathOf, trail]
      rw [hs, Dirs.resolvePath, resolve_name _ _ n [] hn.noSlash (by simpa using hn.fits)]
      rfl
    have hw := resolve_trail (t := t) names 0 n fun m hm => hc m (by simp [hm])
    rw [← hw, ← hp]
    rcases hr : t.resolvePath (pathOf (n :: names)) cwd with err | ⟨parent, basename⟩
    · simp [Dirs.resolveDirFromCwd, hr]
    · refine h.resolveDir hr ?_
      exact h.rooted.sound.resolve _ (.inl rfl) (hp.symm.trans hr)

/-- A name leads one directory down at most, and `.` and `..` none. -/
lemma Neat.enter_depth {current next : ℕ} {n : Name}
    (hl : t.ParentChain current l) (hr : t.enter current n = .ok next) :
    ∃ l', t.ParentChain next l' ∧ l'.length ≤ l.length + 1 ∧
      (n = ['.'] ∨ n = ['.', '.'] → l'.length ≤ l.length) := by
  unfold Dirs.enter at hr
  split_ifs at hr with hdo hup h0
  · simp only [Except.ok.injEq] at hr
    exact ⟨l, hr ▸ hl, by omega, fun _ => le_rfl⟩
  · simp only [Except.ok.injEq] at hr
    exact ⟨[], hr ▸ .root, by simp, by simp⟩
  · rcases h.parentOf hl.place with ⟨heq, -⟩ | ⟨-, hp⟩
    · exact absurd heq h0
    · simp only [hp, Option.getD_some, Except.ok.injEq] at hr
      cases hl with
      | root => exact absurd rfl h0
      | up _ _ ha => exact ⟨_, hr ▸ ha, by simp; omega, by simp⟩
  · rcases hi : t.entryIdx n current with _ | idx
    · simp [hi] at hr
    · rw [hi] at hr
      dsimp only at hr
      split_ifs at hr with hd
      obtain ⟨hlt, ht⟩ := find_some hi
      simp only [named, Bool.and_eq_true, bne_iff_ne, ne_eq, beq_iff_eq] at ht
      have hu : t.Used idx := ⟨hlt, ht.1.1⟩
      simp only [h.rooted.ids idx hu, Except.ok.injEq] at hr
      subst hr
      have hne : idx ≠ 0 := fun h0 => h.noZero (h0 ▸ hu)
      refine ⟨idx :: l, .up hne ⟨hu, not_not.1 hd⟩ (ht.1.2.symm ▸ hl), by simp, ?_⟩
      rintro (rfl | rfl)
      · simp at hdo
      · simp at hup

lemma Neat.walk_depth (names : List Name) {x : ℕ} (hw : t.walk 0 names = .ok x) :
    ∃ l, t.ParentChain x l ∧ l.length ≤ names.length ∧
      ((∃ n ∈ names, n = ['.'] ∨ n = ['.', '.']) → l.length < names.length) := by
  induction names using reverseRecOn generalizing x with
  | nil =>
    simp only [walk, Except.ok.injEq] at hw
    exact ⟨[], hw ▸ .root, by simp, by simp⟩
  | append_singleton names n ih =>
    rw [walk_concat] at hw
    rcases hm : t.walk 0 names with err | y
    · simp [hm] at hw
    · rw [hm] at hw
      obtain ⟨l, hl, hle, hlt⟩ := ih hm
      obtain ⟨l', hl', hle', hd⟩ := h.enter_depth hl hw
      refine ⟨l', hl', by simp; omega, ?_⟩
      rintro ⟨m, hmem, hm⟩
      simp only [length_append, length_singleton]
      rcases mem_append.1 hmem with hmem | hmem
      · have := hlt ⟨m, hmem, hm⟩
        omega
      · have := hd (mem_singleton.1 hmem ▸ hm)
        omega

/-- Down the names of a chain, one comes to where it starts. -/
lemma Neat.walk_chain (hl : t.ParentChain p l)
    (hp : ∀ i ∈ l, (t.table i).filename ≠ ['.'] ∧ (t.table i).filename ≠ ['.', '.']) :
    t.walk 0 (l.reverse.map fun i => (t.table i).filename) = .ok p := by
  induction hl with
  | root => rfl
  | @up p l h0 hd _ ih =>
    have ih := ih fun i hi => hp i (by simp [hi])
    obtain ⟨hdo, hu⟩ := hp p (by simp)
    have hna := h.names p hd.1
    rw [reverse_cons, map_append, map_singleton, walk_concat, ih]
    have hid : t.entryIdx (t.table p).filename (t.table p).parentId = some p := by
      have hs : (t.table p).named (t.table p).parentId (t.table p).filename = true := by
        simp [named, hd.1.2]
      exact firstIdx_of_unique hd.1.1 hs fun j hj hn =>
        (h.entries _ _).single j hj p hd.1.1 hn hs
    simp only [Dirs.enter, hna.nonempty, hdo, hu, or_self, if_false, hid, hd.2, ne_eq,
      not_true_eq_false, h.rooted.ids p hd.1]

lemma Neat.climb_chain {depth id : ℕ} {chain : List ℕ}
    (hc : t.climb depth id = .ok chain) : t.ParentChain id chain := by
  induction depth generalizing id chain with
  | zero =>
    unfold climb at hc
    split_ifs at hc with h0
    simp only [Except.ok.injEq] at hc
    rw [h0, ← hc]
    exact .root
  | succ depth ih =>
    unfold climb at hc
    split_ifs at hc with h0
    · simp only [Except.ok.injEq] at hc
      rw [h0, ← hc]
      exact .root
    · rcases hi : t.find fun d => d.entryId == id && d.fileType == ftDir && d.isUsed == 1 with
        _ | idx
      · simp [hi] at hc
      simp only [hi] at hc
      rcases hup : t.climb depth (t.table idx).parentId with err | above
      · simp [hup] at hc
      simp only [hup, Except.ok.injEq] at hc
      obtain ⟨hlt, ht⟩ := find_some hi
      simp only [Bool.and_eq_true, beq_iff_eq] at ht
      have hu : t.Used idx := ⟨hlt, by omega⟩
      have heq : idx = id := (h.rooted.ids idx hu).symm.trans ht.1.1
      subst heq hc
      exact .up h0 ⟨hu, ht.1.2⟩ (ih hup)

end

lemma putName_eq : ∀ {name : Name} {path r : List Char}, putName path name = .ok r →
    r = path ++ name
  | [], path, r, h => by
    simp only [putName, Except.ok.injEq] at h
    simp [h]
  | c :: name, path, r, h => by
    rw [putName, putChar] at h
    split_ifs at h with hf
    rw [putName_eq h]
    simp

lemma render_trail : ∀ {chain : List ℕ} {path r : List Char}, 1 < path.length →
    t.render path chain = .ok r → r = path ++ trail (chain.map fun i => (t.table i).filename)
  | [], path, r, _, h => by
    simp only [render, Except.ok.injEq] at h
    simp [h, trail]
  | idx :: chain, path, r, hl, h => by
    rw [render, putSlash, if_pos hl, putChar] at h
    split_ifs at h with hf
    rcases hn : putName (path ++ ['/']) (t.table idx).filename with err | path'
    · simp [hn] at h
    · simp only [hn] at h
      have hp := putName_eq hn
      rw [render_trail (by rw [hp]; simp; omega) h, hp]
      simp [trail]

lemma render_pathOf {chain : List ℕ} {r : List Char}
    (hne : ∀ i ∈ chain, (t.table i).filename ≠ []) (h : t.render ['/'] chain = .ok r) :
    r = pathOf (chain.map fun i => (t.table i).filename) := by
  rcases chain with _ | ⟨idx, chain⟩
  · simp only [render, Except.ok.injEq] at h
    simp [← h, pathOf]
  · rw [render, putSlash, if_neg (by simp)] at h
    dsimp only at h
    rcases hn : putName ['/'] (t.table idx).filename with err | path'
    · simp [hn] at h
    · rw [hn] at h
      have hp := putName_eq hn
      have hpo := length_pos_of_ne_nil (hne idx (by simp))
      rw [render_trail (by rw [hp]; simp; omega) h, hp]
      simp [pathOf, trail]

/-- The string is the names of the parent chain, from the root down. -/
lemma Neat.sysGetcwd (h : t.Neat) {cwd userSize : ℕ} {copyOk : Bool}
    (hg : t.sysGetcwd cwd userSize copyOk = .ok path) :
    ∃ l, t.ParentChain cwd l ∧
      path = pathOf (l.reverse.map fun i => (t.table i).filename) := by
  unfold Dirs.sysGetcwd at hg
  by_cases h0 : userSize = 0
  · simp [h0] at hg
  rw [if_neg h0] at hg
  rcases hc : t.climb getcwdMaxDepth cwd with err | chain
  · simp [hc] at hg
  · rw [hc] at hg
    have hch := h.climb_chain hc
    rcases hr : t.render ['/'] chain.reverse with err | p
    · simp [hr] at hg
    · simp only [hr] at hg
      split_ifs at hg
      simp only [Except.ok.injEq] at hg
      subst hg
      refine ⟨chain, hch, render_pathOf (fun i hi => ?_) hr⟩
      exact (h.names i (hch.dir (mem_reverse.1 hi)).2.1).nonempty

lemma Neat.leadsTo_iff (h : t.Neat) {cwd userSize : ℕ} {copyOk : Bool}
    (hg : t.sysGetcwd cwd userSize copyOk = .ok path) : t.LeadsTo path cwd ↔ t.PlainWay cwd := by
  obtain ⟨l, hl, rfl⟩ := h.sysGetcwd hg
  have hc : ∀ n ∈ l.reverse.map (fun i => (t.table i).filename), Component n := by
    intro n hn
    simp only [mem_map, mem_reverse] at hn
    obtain ⟨i, hi, rfl⟩ := hn
    exact h.names i (hl.dir hi).2.1
  constructor
  · intro hle l' hl' i hi
    rw [hl'.unique hl] at hi
    have hw := hle 0 0
    rw [h.resolveDir_pathOf _ hc] at hw
    obtain ⟨l'', hl'', -, hlt⟩ := h.walk_depth _ hw
    -- a chain of another length would end elsewhere
    have hln : ¬ l''.length < l.length := by
      rw [hl''.unique hl]
      omega
    rw [← not_or]
    intro hd
    refine hln (by simpa using hlt ⟨_, mem_map.2 ⟨i, mem_reverse.2 hi, rfl⟩, hd⟩)
  · intro hp cwd' gid
    rw [h.resolveDir_pathOf _ hc]
    exact h.walk_chain hl (hp l hl)

end Dirs

section Runs

open Dirs

structure SessionsNeat (s : Sessions) : Prop where
  dirs : s.dirs.Neat
  cwds : ∀ task, s.dirs.Place (s.cwd task)

variable {s : Sessions} {e : DirEnv}

section

variable (h : SessionsNeat s)
include h

lemma SessionsNeat.evolves {t : Dirs} (hn : t.Neat)
    (he : Evolves s.dirs t fun _ => False) : SessionsNeat { s with dirs := t } := by
  refine ⟨hn, fun task => ?_⟩
  rcases h.cwds task with h0 | hd
  · exact .inl h0
  · exact .inr (he.dir hd not_false)

lemma SessionsNeat.mkdir (cwd : ℕ) (name : Option (List Char)) :
    SessionsNeat { s with dirs := (s.dirs.sysMkdir e cwd name).2 } := by
  unfold sysMkdir
  rcases copyUserString name with _ | path
  · exact h
  rcases hr : s.dirs.resolvePath path cwd with err | ⟨parentId, basename⟩
  · simpa [hr] using h
  simp only [hr]
  split_ifs with hne ha
  · exact h
  · exact h
  · exact h.evolves (h.dirs.mkdir (resolvePath_component hr hne))
      (mkdir_grows.evolves h.dirs.rooted.sound)

lemma SessionsNeat.moveFile (cwd : ℕ) (oldName newName : List Char) :
    SessionsNeat { s with dirs := (s.dirs.moveFile e cwd oldName newName).2 } := by
  unfold Dirs.moveFile
  rcases ho : s.dirs.resolvePath oldName cwd with err | ⟨oldParent, oldBase⟩
  · exact h
  rcases hn : s.dirs.resolvePath newName cwd with err | ⟨newParent, newBase⟩
  · exact h
  dsimp only
  split_ifs with hne hp ha hr
  · exact h
  · exact h
  · exact h
  · exact h
  · rw [not_or] at hne
    exact h.evolves (h.dirs.rename (resolvePath_component hn hne.2))
      ((rename_grows _ _).evolves h.dirs.rooted.sound)

lemma SessionsNeat.mvFile (cwd : ℕ) (oldName newName : Option (List Char)) :
    SessionsNeat { s with dirs := (s.dirs.sysMvFile e cwd oldName newName).2 } := by
  unfold sysMvFile
  rcases copyUserString oldName with _ | oldName
  · exact h
  rcases copyUserString newName with _ | newName
  · exact h
  exact h.moveFile cwd oldName newName

lemma SessionsNeat.chdir (uid gid task : ℕ) (arg : Option (List Char)) :
    SessionsNeat (s.chdir uid gid task arg) := by
  unfold Sessions.chdir
  rcases copyUserString arg with _ | path
  · exact h
  rcases hr : s.dirs.resolveDirFromCwd uid gid (s.cwd task) path with err | target
  · simpa [hr] using h
  simp only [hr]
  refine ⟨h.dirs, fun other => ?_⟩
  by_cases ho : other = task
  · subst ho
    simpa using h.dirs.rooted.sound.resolveDirFromCwd (h.cwds other) hr
  · simpa [ho] using h.cwds other

end

lemma SessionsNeat.step (s : Sessions) (a : PathStep) (h : SessionsNeat s) :
    SessionsNeat (s.step a) := by
  unfold Sessions.step
  rcases a.call with name | ⟨oldName, newName⟩ | path
  · exact h.mkdir _ name
  · exact h.mvFile _ oldName newName
  · exact h.chdir _ _ _ path

/-- From an empty table, the string of `sys_getcwd` leads back exactly if no directory on the way is
called `.` or `..`. -/
theorem getcwd_leadsTo_iff (t : Dirs) (hempty : ∀ i, ¬ t.Used i) (calls : List PathStep)
    (task userSize : ℕ) (copyOk : Bool) (path : List Char)
    (hg : ((start t).run calls).dirs.sysGetcwd (((start t).run calls).cwd task)
      userSize copyOk = .ok path) :
    ((start t).run calls).dirs.LeadsTo path (((start t).run calls).cwd task) ↔
      ((start t).run calls).dirs.PlainWay (((start t).run calls).cwd task) := by
  have hstart : SessionsNeat (start t) := ⟨neat_of_empty hempty, fun _ => .inl rfl⟩
  have hrun : SessionsNeat ((start t).run calls) :=
    foldl_invariant .step calls hstart
  exact hrun.dirs.leadsTo_iff hg

def freshDirs : Dirs := ⟨true, 8, 100, fun _ => .zero⟩

lemma freshDirs_unused (i : ℕ) : ¬ freshDirs.Used i := fun h => h.2 rfl

def rootStep (call : PathCall) : PathStep := ⟨0, plainDirEnv, call⟩

def nested : List PathStep :=
  [rootStep (.mkdir (some ['a'])), rootStep (.chdir (some ['a'])),
    rootStep (.mkdir (some ['b'])), rootStep (.chdir (some ['b']))]

def dotted : List PathStep :=
  [rootStep (.mkdir (some ['a'])), rootStep (.chdir (some ['a'])),
    rootStep (.rename (some ['/', 'a']) (some ['/', '.', '.']))]

theorem getcwd_leadsTo_nested :
    ((start freshDirs).run nested).dirs.LeadsTo ['/', 'a', '/', 'b']
      (((start freshDirs).run nested).cwd 0) := by
  refine (getcwd_leadsTo_iff freshDirs freshDirs_unused nested 0 512 true _
    (by decide +kernel)).2 fun l hl i hi => ?_
  have hnames : ∀ i < 8, (((start freshDirs).run nested).dirs.table i).filename ≠ ['.'] ∧
      (((start freshDirs).run nested).dirs.table i).filename ≠ ['.', '.'] := by
    decide +kernel
  have hslots : ((start freshDirs).run nested).dirs.maxEntries = 8 := by decide +kernel
  exact hnames i (hslots ▸ (hl.dir hi).2.1.1)

/-- The working directory 1 is `/..` now, which leads to the root. -/
theorem getcwd_dotted :
    ((start freshDirs).run dotted).cwd 0 = 1 ∧
    ((start freshDirs).run dotted).dirs.sysGetcwd 1 512 true = .ok ['/', '.', '.'] ∧
    ((start freshDirs).run dotted).dirs.resolveDirFromCwd 0 0 0 ['/', '.', '.'] =
      .ok 0 ∧ ¬ ((start freshDirs).run dotted).dirs.LeadsTo ['/', '.', '.'] 1 := by
  have hroot : ((start freshDirs).run dotted).dirs.resolveDirFromCwd 0 0 0
      ['/', '.', '.'] = .ok 0 := by decide +kernel
  refine ⟨by decide +kernel, by decide +kernel, hroot, fun h => ?_⟩
  have := (h 0 0).symm.trans hroot
  simp at this

end Runs

end EsdumanOS
