/-
  Which objects of a package are asked for.

  A store lists the keys of a package page by page, and the objects of a page are got and
  stored one after the other up to the first that fails.  Over all pages that comes to going
  through the wanted objects of the package in one row: pages decide how often the store is
  asked for keys and nothing else.
-/
import HpcBlueprint.Proofs.Fetch.Objects

namespace HpcBlueprint
namespace S3

variable {s : ObjectStore} {a : Address} {dest key : String} {keys : List String}
  {fs fs' : FileSystem} {r : Except FetchError Unit} {p p' : Progress}

/-! ## Pages -/

/-- The objects asked for, each by its bucket and its key. -/
def gets (requests : List ObjectStore.Request) : List (String × String) :=
  requests.filterMap fun
    | .get bucket key => some (bucket, key)
    | .list .. => none

/-- The pages asked for, each by a bucket, the beginning of its keys and the number of its
    first one. -/
def lists (requests : List ObjectStore.Request) : List (String × String × Nat) :=
  requests.filterMap fun
    | .list bucket start number => some (bucket, start, number)
    | .get .. => none

section Requests

variable (requests more : List ObjectStore.Request) (bucket start : String) (number : Nat)

@[simp] theorem gets_append : gets (requests ++ more) = gets requests ++ gets more :=
  List.filterMap_append

@[simp] theorem gets_cons_list : gets (.list bucket start number :: more) = gets more := rfl

@[simp] theorem gets_map_get (keys : List String) :
    gets (keys.map (.get bucket)) = keys.map (bucket, ·) := by
  rw [gets, List.filterMap_map]
  exact congrFun (List.filterMap_eq_map (f := (bucket, ·))) keys

@[simp] theorem lists_append : lists (requests ++ more) = lists requests ++ lists more :=
  List.filterMap_append

@[simp] theorem lists_cons_list :
    lists (.list bucket start number :: more) = (bucket, start, number) :: lists more := rfl

@[simp] theorem lists_map_get (keys : List String) : lists (keys.map (.get bucket)) = [] := by
  rw [lists, List.filterMap_map, List.filterMap_eq_nil_iff]
  exact fun _ _ => rfl

end Requests

theorem fetches_downloadAll (hkeys : ∀ key ∈ keys, Text.startsWith a.start key = true)
    (h : downloadAll s a dest keys p = (r, p')) :
    ∃ asked, Fetches s a dest (keys.filter (Wanted a.start ·)) p.files r asked p'.files ∧
      p'.requests = p.requests ++ asked.map (.get a.bucket) ∧
      (r = .ok () → p'.count = p.count + asked.length) := by
  -- a key that is not wanted is passed over, so the keys fetched are the filtered ones
  induction keys generalizing p with
  | nil =>
      obtain ⟨rfl, rfl⟩ := Prod.mk.inj h
      exact ⟨[], .done, (List.append_nil _).symm, fun _ => rfl⟩
  | cons key rest ih =>
      obtain ⟨hkey, hrest⟩ := List.forall_mem_cons.mp hkeys
      rw [downloadAll] at h
      split at h
      · rename_i hnone
        have hskipped : ¬ Wanted a.start key := by
          rw [wanted_iff, hnone]
          exact fun hwanted => absurd hwanted.2 Bool.false_ne_true
        rw [List.filter_cons_of_neg (by simpa using hskipped)]
        exact ih hrest h
      · rename_i relative hrelative
        have hwanted : Wanted a.start key := wanted_iff.mpr ⟨hkey, by rw [hrelative]; rfl⟩
        rw [List.filter_cons_of_pos (by simpa using hwanted)]
        split at h
        · rename_i mid hdownload
          obtain ⟨hobject, hrequests, hcount⟩ := obtains_of_download hrelative hdownload
          obtain ⟨asked, hfetches, hmore, hall⟩ := ih hrest h
          refine ⟨key :: asked, .stored hobject hfetches, ?_, fun hr => ?_⟩
          · rw [hmore, hrequests, List.append_assoc]
            rfl
          · rw [hall hr, hcount rfl, List.length_cons]
            omega
        · rename_i e mid hdownload
          obtain ⟨hobject, hrequests, -⟩ := obtains_of_download hrelative hdownload
          obtain ⟨rfl, rfl⟩ := Prod.mk.inj h
          exact ⟨[key], .failed hobject, hrequests, fun hr => by cases hr⟩

theorem forall_mem_page {P : String → Prop} (h : ∀ key ∈ keys, P key) (number : Nat) {size : Nat} :
    ∀ key ∈ (keys.drop number).take size, P key :=
  fun key hkey => h key (List.mem_of_mem_drop (List.mem_of_mem_take hkey))

/-- Page after page, the wanted objects from the key of some number on are fetched. -/
theorem fetches_downloadFrom (s : ObjectStore) (dest : String)
    (hkeys : ∀ key ∈ keys, Text.startsWith a.start key = true) (number : Nat) (p : Progress) :
    ∃ asked,
      Fetches s a dest ((keys.drop number).filter (Wanted a.start ·)) p.files
        (downloadFrom s a dest keys number p).1 asked
        (downloadFrom s a dest keys number p).2.files ∧
      gets (downloadFrom s a dest keys number p).2.requests =
        gets p.requests ++ asked.map (a.bucket, ·) ∧
      ((downloadFrom s a dest keys number p).1 = .ok () →
        (downloadFrom s a dest keys number p).2.count = p.count + asked.length) := by
  -- of what is left, a page is the beginning: what is wanted of it comes apart alike
  have hpages : ∀ number, (keys.drop number).filter (Wanted a.start ·) =
      ((keys.drop number).take s.pageSize).filter (Wanted a.start ·) ++
        (keys.drop (number + s.pageSize)).filter (Wanted a.start ·) := by
    intro number
    rw [← List.filter_append, ← List.drop_drop, List.take_append_drop]
  fun_induction downloadFrom s a dest keys number p with
  | case1 number p listed e p' h => -- an object of this page fails
      obtain ⟨asked, hfetches, hrequests, -⟩ := fetches_downloadAll (forall_mem_page hkeys number) h
      rw [hpages]
      exact ⟨asked, hfetches.append_of_error, by simp [hrequests, listed], fun hr => by cases hr⟩
  | case2 number p listed _ p' h more ih => -- more pages follow
      obtain ⟨asked, hfetches, hrequests, hcount⟩ :=
        fetches_downloadAll (forall_mem_page hkeys number) h
      obtain ⟨asked', hfetches', hgets', hcount'⟩ := ih
      rw [hpages]
      refine ⟨asked ++ asked', hfetches.append hfetches', ?_, fun hr => ?_⟩
      · simp [hgets', hrequests, listed]
      · rw [hcount' hr, hcount rfl, List.length_append]
        exact Nat.add_assoc ..
  | case3 number p listed _ p' h last => -- this is the last page
      obtain ⟨asked, hfetches, hrequests, hcount⟩ :=
        fetches_downloadAll (forall_mem_page hkeys number) h
      have hlast : keys.drop (number + s.pageSize) = [] := List.drop_eq_nil_of_le (by omega)
      rw [hpages, hlast, List.filter_nil, List.append_nil]
      exact ⟨asked, hfetches, by simp [hrequests, listed], fun _ => hcount rfl⟩

/-- The pages follow each other, and none but the first begins behind the last key. -/
theorem lists_downloadFrom (s : ObjectStore) (dest : String)
    (hkeys : ∀ key ∈ keys, Text.startsWith a.start key = true) (number : Nat) (p : Progress) :
    ∃ count,
      lists (downloadFrom s a dest keys number p).2.requests = lists p.requests ++
        (List.range (count + 1)).map (a.bucket, a.start, number + · * s.pageSize) ∧
      (0 < count → number + count * s.pageSize < keys.length) := by
  fun_induction downloadFrom s a dest keys number p with
  | case1 number p listed e p' h => -- an object of this page fails
      obtain ⟨asked, -, hrequests, -⟩ := fetches_downloadAll (forall_mem_page hkeys number) h
      exact ⟨0, by simp [hrequests, listed], fun hpos => absurd hpos (Nat.lt_irrefl 0)⟩
  | case2 number p listed _ p' h more ih => -- more pages follow
      obtain ⟨asked, -, hrequests, -⟩ := fetches_downloadAll (forall_mem_page hkeys number) h
      obtain ⟨count, hlists, hcount⟩ := ih
      refine ⟨count + 1, ?_, fun _ => ?_⟩
      · rw [hlists, hrequests, List.range_succ_eq_map (n := count + 1)]
        simp [listed, Function.comp_def, Nat.succ_mul, Nat.add_assoc, Nat.add_comm s.pageSize]
      · rw [Nat.succ_mul]
        rcases Nat.eq_zero_or_pos count with rfl | hpos
        · omega
        · have := hcount hpos
          omega
  | case3 number p listed _ p' h last => -- this is the last page
      obtain ⟨asked, -, hrequests, -⟩ := fetches_downloadAll (forall_mem_page hkeys number) h
      exact ⟨0, by simp [hrequests, listed], fun hpos => absurd hpos (Nat.lt_irrefl 0)⟩

/-! ## Packages -/

/-- The keys that a store lists for an address. -/
def listedKeys (s : ObjectStore) (a : Address) : List String :=
  (s.keys a.bucket a.start).toOption.getD []

/-- The keys of the wanted objects at an address, in the order of the store. -/
def wantedKeys (s : ObjectStore) (a : Address) : List String :=
  (listedKeys s a).filter (Wanted a.start ·)

theorem keys_eq_ok_iff {bucket start : String} :
    s.keys bucket start = .ok keys ↔ s.isReachable = true ∧ ∃ objects,
      s.buckets.lookup bucket = some objects ∧
        keys = (objects.map (·.1)).filter (Text.startsWith start) := by
  unfold ObjectStore.keys
  split
  · rename_i hs
    cases s.buckets.lookup bucket with
    | none => simp [hs]
    | some objects => simp [hs, eq_comm]
  · rename_i hs
    simp [hs]

theorem startsWith_of_mem_keys {bucket start : String} (h : s.keys bucket start = .ok keys) :
    ∀ key ∈ keys, Text.startsWith start key = true := by
  obtain ⟨-, objects, -, rfl⟩ := keys_eq_ok_iff.mp h
  exact fun key hkey => List.of_mem_filter hkey

theorem wantedKeys_of_keys (h : s.keys a.bucket a.start = .ok keys) :
    wantedKeys s a = keys.filter (Wanted a.start ·) := by
  rw [wantedKeys, listedKeys, h]
  rfl

theorem wantedKeys_of_error {f : ObjectStore.Failure}
    (h : s.keys a.bucket a.start = .error f) : wantedKeys s a = [] := by
  rw [wantedKeys, listedKeys, h]
  rfl

theorem mem_wantedKeys_iff :
    key ∈ wantedKeys s a ↔ s.isReachable = true ∧ ∃ objects,
      s.buckets.lookup a.bucket = some objects ∧ key ∈ objects.map (·.1) ∧ Wanted a.start key := by
  constructor
  · intro hkey
    cases hkeys : s.keys a.bucket a.start with
    | error f =>
        rw [wantedKeys_of_error hkeys] at hkey
        exact absurd hkey List.not_mem_nil
    | ok keys =>
        rw [wantedKeys_of_keys hkeys, List.mem_filter, decide_eq_true_iff] at hkey
        obtain ⟨hs, objects, hbucket, rfl⟩ := keys_eq_ok_iff.mp hkeys
        exact ⟨hs, objects, hbucket, List.mem_of_mem_filter hkey.1, hkey.2⟩
  · rintro ⟨hs, objects, hbucket, hkey, hwanted⟩
    rw [wantedKeys_of_keys (keys_eq_ok_iff.mpr ⟨hs, objects, hbucket, rfl⟩), List.mem_filter,
      decide_eq_true_iff, List.mem_filter]
    exact ⟨⟨hkey, (wanted_iff.mp hwanted).1⟩, hwanted⟩

/-- The wanted keys are in order if those of the bucket are. -/
theorem wantedKeys_pairwise (h : ∀ objects, s.buckets.lookup a.bucket = some objects →
    (objects.map (·.1)).Pairwise (· < ·)) : (wantedKeys s a).Pairwise (· < ·) := by
  cases hkeys : s.keys a.bucket a.start with
  | error f =>
      rw [wantedKeys_of_error hkeys]
      exact .nil
  | ok keys =>
      obtain ⟨-, objects, hbucket, rfl⟩ := keys_eq_ok_iff.mp hkeys
      rw [wantedKeys_of_keys hkeys]
      exact ((h objects hbucket).filter _).filter _

/-- What is wrong where no object is wanted. -/
def noObjects (s : ObjectStore) (a : Address) : FetchError :=
  match s.keys a.bucket a.start with
  | .error f => .s3 ("Failed to list " ++ urlOf a.bucket a.start ++ ": " ++ f.message)
  | .ok _ => .s3 ("no objects found under " ++ urlOf a.bucket a.start)

/-- Whatever the pages are, the wanted objects are fetched in one row, and it is an error if
    there are none. -/
theorem fetches_fetchObjects (s : ObjectStore) (a : Address) (dest : String) (fs : FileSystem) :
    ∃ r asked,
      Fetches s a dest (wantedKeys s a) fs r asked (fetchObjects s a dest fs).2.files ∧
      gets (fetchObjects s a dest fs).2.requests = asked.map (a.bucket, ·) ∧
      (fetchObjects s a dest fs).1 =
        if wantedKeys s a = [] then .error (noObjects s a) else r := by
  unfold fetchObjects
  cases hkeys : s.keys a.bucket a.start with
  | error f =>
      have hnone := wantedKeys_of_error hkeys
      refine ⟨.ok (), [], ?_, ?_, ?_⟩
      · rw [hnone]
        exact .done
      · dsimp only
        split <;> rfl
      · rw [if_pos hnone, noObjects, hkeys]
  | ok keys =>
      obtain ⟨asked, hfetches, hgets, hcount⟩ :=
        fetches_downloadFrom s dest (startsWith_of_mem_keys hkeys) 0 ⟨0, [], fs⟩
      rw [List.drop_zero, ← wantedKeys_of_keys hkeys] at hfetches
      dsimp only
      split
      · rename_i e p hrun
        rw [hrun] at hfetches hgets
        refine ⟨_, asked, hfetches, hgets, ?_⟩
        -- it fails at an object, so there is one
        rw [if_neg]
        intro hnone
        rw [hnone] at hfetches
        cases hfetches
      · rename_i p hrun
        rw [hrun] at hfetches hgets hcount
        have hcount : p.count = (wantedKeys s a).length := by
          rw [hcount rfl, Nat.zero_add, hfetches.asked_eq]
        split
        · rename_i hzero
          have hnone : wantedKeys s a = [] :=
            List.length_eq_zero_iff.mp (hcount.symm.trans (beq_iff_eq.mp hzero))
          refine ⟨_, asked, hfetches, hgets, ?_⟩
          rw [if_pos hnone, noObjects, hkeys]
        · rename_i hpos
          have hsome : wantedKeys s a ≠ [] := by
            intro hnone
            rw [hcount, hnone] at hpos
            exact hpos rfl
          refine ⟨_, asked, hfetches, hgets, ?_⟩
          rw [if_neg hsome]

/-- A store is asked for the pages of a package one after the other, and for no page behind
    the last key but the first. -/
theorem lists_fetchObjects (s : ObjectStore) (a : Address) (dest : String) (fs : FileSystem) :
    ∃ count,
      lists (fetchObjects s a dest fs).2.requests =
        (List.range count).map (a.bucket, a.start, · * s.pageSize) ∧
      ∀ i < count, 0 < i → i * s.pageSize < (listedKeys s a).length := by
  -- a store that cannot be reached is asked for no page, one without the bucket for the first
  unfold fetchObjects
  cases hkeys : s.keys a.bucket a.start with
  | error f =>
      dsimp only
      split
      · exact ⟨1, by simp [lists], fun i hi hpos => by omega⟩
      · exact ⟨0, rfl, fun i hi => absurd hi (Nat.not_lt_zero i)⟩
  | ok keys =>
      obtain ⟨count, hlists, hcount⟩ :=
        lists_downloadFrom s dest (startsWith_of_mem_keys hkeys) 0 ⟨0, [], fs⟩
      have hlength : listedKeys s a = keys := by
        rw [listedKeys, hkeys]
        rfl
      refine ⟨count + 1, ?_, fun i hi hpos => ?_⟩
      · simp only [Nat.zero_add] at hlists
        dsimp only
        split
        · rename_i hrun
          rw [hrun] at hlists
          exact hlists
        · rename_i hrun
          rw [hrun] at hlists
          split <;> exact hlists
      · have hlast := hcount (by omega)
        rw [Nat.zero_add] at hlast
        rw [hlength]
        exact Nat.lt_of_le_of_lt (Nat.mul_le_mul_right _ (Nat.le_of_lt_succ hi)) hlast

end S3

/-- A store whose pages have another size. -/
def ObjectStore.paged (s : ObjectStore) (size : Nat) (hsize : 0 < size) : ObjectStore :=
  { s with pageSize := size, pageSize_pos := hsize }

namespace S3

theorem Obtains.of_paged {size : Nat} {hsize : 0 < size}
    (h : Obtains (s.paged size hsize) a dest key fs r fs') : Obtains s a dest key fs r fs' := by
  cases h with
  | stored got directories written => exact .stored got directories written
  | denied got => exact .denied got
  | unmade got directories => exact .unmade got directories
  | unwritten got directories written => exact .unwritten got directories written

theorem Fetches.of_paged {size : Nat} {hsize : 0 < size} {asked : List String}
    (h : Fetches (s.paged size hsize) a dest keys fs r asked fs') :
    Fetches s a dest keys fs r asked fs' := by
  induction h with
  | done => exact .done
  | stored hkey _ ih => exact .stored hkey.of_paged ih
  | failed hkey => exact .failed hkey.of_paged

/-- The size of the pages decides nothing but where they begin. -/
theorem fetchObjects_paged (s : ObjectStore) (a : Address) (dest : String) (fs : FileSystem)
    (size : Nat) (hsize : 0 < size) :
    (fetchObjects (s.paged size hsize) a dest fs).1 = (fetchObjects s a dest fs).1 ∧
      gets (fetchObjects (s.paged size hsize) a dest fs).2.requests =
        gets (fetchObjects s a dest fs).2.requests ∧
      (fetchObjects (s.paged size hsize) a dest fs).2.files =
        (fetchObjects s a dest fs).2.files := by
  obtain ⟨r, asked, hfetches, hgets, hr⟩ := fetches_fetchObjects s a dest fs
  obtain ⟨r', asked', hfetches', hgets', hr'⟩ :=
    fetches_fetchObjects (s.paged size hsize) a dest fs
  obtain ⟨rfl, rfl, hfiles⟩ := hfetches.unique hfetches'.of_paged
  exact ⟨hr'.trans hr.symm, hgets'.trans hgets.symm, hfiles⟩

theorem fetch_of_ofPackage? {package : String} (ha : Address.ofPackage? package = some a) :
    fetch s package dest fs = fetchObjects s a dest fs := by
  unfold fetch
  rw [ha]

/-- The wanted objects of a package are asked for in the order of their keys, each once, up to
    and including the first that cannot be got or stored.  Those that are stored stand where
    they go, with all their content and the directories above them, unless a later one goes to
    the same place; else nothing changes but directories that were missing on the way.  Fetching
    succeeds if there is one wanted object at least and none fails.  It comes to an end, as no
    page but the first begins behind the last key; and the size of the pages does not decide how
    it ends, which objects are asked for or what files there are. -/
theorem fetch_in_order (s : ObjectStore) (package dest : String) (fs : FileSystem)
    (ha : Address.ofPackage? package = some a)
    (horder : ∀ objects, s.buckets.lookup a.bucket = some objects →
      (objects.map (·.1)).Pairwise (· < ·)) :
    ∃ r p asked, fetch s package dest fs = (r, p) ∧
      gets p.requests = asked.map (a.bucket, ·) ∧ asked.Pairwise (· < ·) ∧
      (∀ key, key ∈ wantedKeys s a ↔ s.isReachable = true ∧ ∃ objects,
        s.buckets.lookup a.bucket = some objects ∧ key ∈ objects.map (·.1) ∧
          Wanted a.start key) ∧
      (wantedKeys s a).Pairwise (· < ·) ∧
      (∀ key ∈ wantedKeys s a, ∃ rest, key = a.start ++ rest ∧
        target a dest key = Path.join dest rest) ∧
      ((asked = wantedKeys s a ∧ Fetches s a dest (wantedKeys s a) fs (.ok ()) asked p.files ∧
          Holds s a dest (wantedKeys s a) p.files ∧
          r = if wantedKeys s a = [] then .error (noObjects s a) else .ok ()) ∨
        ∃ before key after mid e, wantedKeys s a = before ++ key :: after ∧
          asked = before ++ [key] ∧ Fetches s a dest before fs (.ok ()) before mid ∧
          Obtains s a dest key mid (.error e) p.files ∧ Holds s a dest before p.files ∧
          r = .error e) ∧
      (∀ l, p.files.node? l = fs.node? l ∨ (∃ key ∈ asked, l = fs.lexical (target a dest key)) ∨
        (fs.node? l = none ∧ p.files.node? l = some .directory ∧
          ∃ key ∈ asked, ∃ q, Path.Passed (target a dest key) q ∧ l = fs.lexical q)) ∧
      (r = .ok () ↔ wantedKeys s a ≠ [] ∧
        ∃ fs', Fetches s a dest (wantedKeys s a) fs (.ok ()) (wantedKeys s a) fs') ∧
      (∃ count, lists p.requests = (List.range count).map (a.bucket, a.start, · * s.pageSize) ∧
        ∀ i < count, 0 < i → i * s.pageSize < (listedKeys s a).length) ∧
      ∀ size hsize, ∃ q, fetch (s.paged size hsize) package dest fs = (r, q) ∧
        gets q.requests = gets p.requests ∧ q.files = p.files := by
  obtain ⟨r, asked, hfetches, hgets, hr⟩ := fetches_fetchObjects s a dest fs
  refine ⟨(fetchObjects s a dest fs).1, (fetchObjects s a dest fs).2, asked,
    fetch_of_ofPackage? ha, hgets, (wantedKeys_pairwise horder).sublist hfetches.asked_prefix.sublist,
    fun key => mem_wantedKeys_iff, wantedKeys_pairwise horder, fun key hkey => ?_, ?_,
    hfetches.node?, ?_, lists_fetchObjects s a dest fs, fun size hsize => ?_⟩
  · obtain ⟨-, -, -, -, rest, rfl, -⟩ := mem_wantedKeys_iff.mp hkey
    exact ⟨rest, rfl, target_append a dest rest⟩
  · cases r with
    | ok _ =>
        obtain rfl := hfetches.asked_eq
        exact .inl ⟨rfl, hfetches, hfetches.holds, hr⟩
    | error e =>
        obtain ⟨before, key, after, mid, hkeys, hasked, hbefore, hkey⟩ := hfetches.exists_failed
        have hsome : wantedKeys s a ≠ [] := by simp [hkeys]
        rw [if_neg hsome] at hr
        exact .inr ⟨before, key, after, mid, e, hkeys, hasked, hbefore, hkey,
          hbefore.holds.of_error hkey, hr⟩
  · rw [hr]
    constructor
    · intro hok
      split at hok
      · cases hok
      · rename_i hsome
        subst hok
        exact ⟨hsome, _, hfetches.asked_eq ▸ hfetches⟩
    · rintro ⟨hsome, fs', hall⟩
      rw [if_neg hsome]
      exact (hfetches.unique hall).1.symm
  · obtain ⟨hr', hgets', hfiles'⟩ := fetchObjects_paged s a dest fs size hsize
    exact ⟨(fetchObjects (s.paged size hsize) a dest fs).2,
      (fetch_of_ofPackage? ha).trans (Prod.ext hr' rfl), hgets', hfiles'⟩

/-- A page may hold nothing that is wanted; what stands before the object that fails is stored,
    and what follows it is left. -/
theorem fetch_in_order_locked :
    let s := { shelf ["p/", "p/a.tf", "p/b/", "p/c.tf", "p/d.tf"] with locked := ["p/c.tf"] }
    Address.ofPackage? "s3://b/p?region=r" = some ⟨"b", "p/"⟩ ∧
      ∃ r p, fetch s "s3://b/p?region=r" "/tmp/package" scratch = (r, p) ∧ r ≠ .ok () ∧
        gets p.requests = [("b", "p/a.tf"), ("b", "p/c.tf")] ∧
        p.files.find "/tmp/package/a.tf" =
          .ok (["tmp", "package", "a.tf"], .file (.text "x")) ∧
        ∀ size hsize, ∃ q,
          fetch (s.paged size hsize) "s3://b/p?region=r" "/tmp/package" scratch = (r, q) ∧
          gets q.requests = [("b", "p/a.tf"), ("b", "p/c.tf")] ∧ q.files = p.files := by
  intro s
  have ha : Address.ofPackage? "s3://b/p?region=r" = some ⟨"b", "p/"⟩ := by decide +kernel
  have horder : ∀ objects, s.buckets.lookup "b" = some objects →
      (objects.map (·.1)).Pairwise (· < ·) := by
    rintro objects hobjects
    obtain rfl := Option.some.inj hobjects
    decide +kernel
  have hgets : gets (fetch s "s3://b/p?region=r" "/tmp/package" scratch).2.requests =
      [("b", "p/a.tf"), ("b", "p/c.tf")] := by decide +kernel
  have hfails : (fetch s "s3://b/p?region=r" "/tmp/package" scratch).1.toOption = none := by
    decide +kernel
  obtain ⟨r, p, asked, hfetch, hasked, -, -, -, -, hends, -, -, -, hpages⟩ :=
    fetch_in_order s "s3://b/p?region=r" "/tmp/package" scratch ha horder
  rw [hfetch] at hgets hfails
  have hr : r ≠ .ok () := by
    rintro rfl
    cases hfails
  refine ⟨ha, r, p, hfetch, hr, hgets, ?_, fun size hsize => ?_⟩
  · rcases hends with ⟨-, -, -, hdone⟩ | ⟨before, key, after, mid, e, -, hsplit, -, -, hholds, -⟩
    · rw [if_neg (by decide +kernel)] at hdone
      exact absurd hdone hr
    · have hbefore : before = ["p/a.tf"] := by
        rw [hgets, hsplit, List.map_append, List.map_singleton] at hasked
        have hfirst := congrArg (fun keys => keys.dropLast.map (·.2)) hasked
        simpa [Function.comp_def] using hfirst.symm
      obtain ⟨content, hgot, hfind, -⟩ := hholds [] "p/a.tf" [] hbefore (by simp)
      have htarget : target ⟨"b", "p/"⟩ "/tmp/package" "p/a.tf" = "/tmp/package/a.tf" := by
        decide +kernel
      have hcontent : s.get "b" "p/a.tf" = .ok (.text "x") := by rfl
      rw [htarget, ← Except.ok.inj (hcontent.symm.trans hgot)] at hfind
      exact hfind
  · obtain ⟨q, hq, hsame, hfiles⟩ := hpages size hsize
    exact ⟨q, hq, hsame.trans hgets, hfiles⟩

end S3
end HpcBlueprint
