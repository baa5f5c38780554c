/-
  The spellings of a package of objects.

  A bucket and a beginning of keys may be written with a scheme, behind the mark of the kind
  of address, and in two kinds of URLs, one with the bucket in the path and one with the
  bucket in front of the host.  All but the last are read back whatever the names are.  In
  the last one the host is told from the bucket by what the host looks like, so a bucket
  whose name looks like a host of its own is misread, and any other is not.
-/
import HpcBlueprint.Fetch.S3
import HpcBlueprint.Proofs.Text.Search

namespace HpcBlueprint
namespace S3

variable {bucket region start query : String}

/-! ## Names -/

/-- A name in lower case: letters, digits and hyphens. -/
def IsRegionName (name : String) : Prop :=
  name ≠ "" ∧ ∀ c ∈ name.toList, c.isLower = true ∨ c.isDigit = true ∨ c = '-'

/-- A name in lower case that may also have dots. -/
def IsBucketName (name : String) : Prop :=
  name ≠ "" ∧ ∀ c ∈ name.toList, c.isLower = true ∨ c.isDigit = true ∨ c = '.' ∨ c = '-'

-- The characters of a name are gone through, not all that there are.
instance : DecidablePred IsRegionName := fun _ =>
  @instDecidableAnd _ _ _ (List.decidableBAll _ _)

instance : DecidablePred IsBucketName := fun _ =>
  @instDecidableAnd _ _ _ (List.decidableBAll _ _)

/-- Names have none of the characters that cut an address. -/
theorem IsBucketName.not_mem (h : IsBucketName bucket) {c : Char} (hc : c ∈ ['/', ':', '?']) :
    c ∉ bucket.toList := by
  intro hmem
  have hname := h.2 c hmem
  simp only [List.mem_cons, List.not_mem_nil, or_false] at hc
  rcases hc with rfl | rfl | rfl <;> revert hname <;> decide

theorem IsRegionName.isBucketName (h : IsRegionName region) : IsBucketName region :=
  ⟨h.1, fun c hc => (h.2 c hc).imp_right (Or.imp_right Or.inr)⟩

/-! ## Spellings -/

/-- The beginning of keys that a package has: it ends in a slash if it is not empty. -/
def completed (start : String) : String :=
  if start.isEmpty || Text.endsWith "/" start then start else start ++ "/"

/-- A way to write a bucket and a beginning of keys. -/
inductive Spelling
  /-- With a scheme of its own. -/
  | scheme
  /-- Behind the mark of the kind of address. -/
  | forced
  /-- As a URL whose path begins with the bucket. -/
  | path (region : String)
  /-- As a URL whose host begins with the bucket. -/
  | host (region : String)

namespace Spelling

/-- The region that a spelling names. -/
def region? : Spelling → Option String
  | .scheme | .forced => none
  | .path region | .host region => some region

/-- A bucket and a beginning of keys as they are written. -/
def write (bucket start : String) : Spelling → String
  | .scheme => "s3://" ++ (bucket ++ "/" ++ start)
  | .forced => "s3::" ++ (bucket ++ "/" ++ start)
  | .path region =>
    "s3::" ++ ("https://" ++ ("s3." ++ region ++ hostEnd ++ "/" ++ (bucket ++ "/" ++ start)))
  | .host region =>
    "s3::" ++ ("https://" ++ (bucket ++ ".s3." ++ region ++ hostEnd ++ "/" ++ start))

end Spelling

/-- A bucket whose name, in front of a host, looks like a host that serves all buckets or like
    the end of a shorter name. -/
def Disguised (bucket : String) : Prop :=
  Text.startsWith "s3." (bucket ++ ".") = true ∨ Text.startsWith "s3-" bucket = true ∨
    ".s3".toList <:+: bucket.toList

/-! ## Reading -/

theorem cutSlash_append {before : String} (h : '/' ∉ before.toList) (after : String) :
    cutSlash (before ++ "/" ++ after) = (before, after) := by
  have hslash : "/".toList = ['/'] := by decide
  have hcut : Text.splitOnce '/' (before ++ "/" ++ after) = some (before, after) := by
    rw [Text.splitOnce_eq_some_iff, String.toList_append, String.toList_append, hslash,
      List.append_assoc, List.singleton_append]
    exact ⟨rfl, h⟩
  rw [cutSlash, hcut, Option.getD_some]

/-- A text whose first piece has no colon does not begin like a URL. -/
theorem startsWith_scheme (scheme : String) {piece : String} (hcolon : ':' ∈ scheme.toList)
    (hslash : '/' ∉ scheme.toList) (h : ':' ∉ piece.toList) (rest after : String) :
    Text.startsWith (scheme ++ after) (piece ++ "/" ++ rest) = false := by
  rw [Bool.eq_false_iff, ne_eq, Text.startsWith_iff, String.toList_append, String.toList_append,
    String.toList_append, List.append_assoc]
  intro hstart
  have hlong : scheme.toList <+: piece.toList ++ '/' :: rest.toList :=
    (List.prefix_append _ _).trans hstart
  exact h (((Text.prefix_append_cons_iff hslash).mp hlong).subset hcolon)

theorem parts?_scheme (rest : String) : parts? ("s3://" ++ rest) = some (cutSlash rest) := by
  have hstart := Text.startsWith_append "s3://" rest
  have hmark : Text.dropStart? "s3::" ("s3://" ++ rest) = none :=
    Text.dropStart?_eq_none_iff.mpr
      (Text.startsWith_eq_false "s3::" hstart (by decide) (by decide))
  rw [parts?, hmark, Option.getD_none, Text.dropStart?_append]

theorem parts?_forced (hslash : '/' ∉ bucket.toList) (hcolon : ':' ∉ bucket.toList)
    (start : String) : parts? ("s3::" ++ (bucket ++ "/" ++ start)) = some (bucket, start) := by
  have hscheme : Text.dropStart? "s3://" (bucket ++ "/" ++ start) = none :=
    Text.dropStart?_eq_none_iff.mpr
      (startsWith_scheme "s3:" (by decide) (by decide) hcolon start "//")
  have hhttps : Text.dropStart? "https://" (bucket ++ "/" ++ start) = none :=
    Text.dropStart?_eq_none_iff.mpr
      (startsWith_scheme "https:" (by decide) (by decide) hcolon start "//")
  have hhttp : Text.dropStart? "http://" (bucket ++ "/" ++ start) = none :=
    Text.dropStart?_eq_none_iff.mpr
      (startsWith_scheme "http:" (by decide) (by decide) hcolon start "//")
  simp only [parts?, Text.dropStart?_append, Option.getD_some, hscheme, List.findSome?_cons,
    hhttps, hhttp, List.findSome?_nil, cutSlash_append hslash]

theorem parts?_url (rest : String) : parts? ("s3::" ++ ("https://" ++ rest)) = ofUrl? rest := by
  have hstart := Text.startsWith_append "https://" rest
  have hscheme : Text.dropStart? "s3://" ("https://" ++ rest) = none :=
    Text.dropStart?_eq_none_iff.mpr
      (Text.startsWith_eq_false "s3://" hstart (by decide) (by decide))
  simp only [parts?, Text.dropStart?_append, Option.getD_some, hscheme, List.findSome?_cons]

/-- In a URL of a host that serves objects the bucket is looked for by the host's beginning. -/
theorem ofUrl?_append {host : String} (hslash : '/' ∉ (host ++ hostEnd).toList) (path : String) :
    ofUrl? (host ++ hostEnd ++ "/" ++ path) =
      if Text.startsWith "s3." (host ++ hostEnd) || Text.startsWith "s3-" (host ++ hostEnd) then
        some (cutSlash path)
      else (Text.breakOn ".s3".toList (host ++ hostEnd).toList).map fun (bucket, _) =>
        (String.ofList bucket, path) := by
  have hend : Text.endsWith hostEnd (host ++ hostEnd) = true :=
    List.isSuffixOf_iff_suffix.mpr (String.toList_append ▸ List.suffix_append _ _)
  rw [ofUrl?, cutSlash_append hslash]
  simp only [hend, Bool.not_true, Bool.false_eq_true, if_false]

theorem ofPackage?_append {address : String} (haddress : '?' ∉ address.toList)
    (hquery : query = "" ∨ Text.startsWith "?" query = true) :
    Address.ofPackage? (address ++ query) =
      (parts? address).bind fun (bucket, start) =>
        if bucket.isEmpty || bucket.toList.contains ':' then none
        else some ⟨bucket, completed start⟩ := by
  have hpass : ∀ c ∈ address.toList, (c != '?') = true := fun c hc =>
    bne_iff_ne.mpr fun hmark => haddress (hmark ▸ hc)
  have hstop : query.toList.takeWhile (· != '?') = [] := by
    rcases hquery with rfl | hquery
    · rfl
    · obtain ⟨rest, hrest⟩ := Text.startsWith_iff.mp hquery
      rw [← hrest]
      rfl
  rw [Address.ofPackage?, String.toList_append, List.takeWhile_append_of_pos hpass, hstop,
    List.append_nil, String.ofList_toList]
  rfl

/-! ## Buckets in front of hosts -/

/-- A host that begins with a bucket. -/
def hostOf (bucket region : String) : String := bucket ++ ".s3." ++ region ++ hostEnd

theorem toList_hostOf (bucket region : String) :
    (hostOf bucket region).toList =
      bucket.toList ++ ".s3".toList ++ ("." ++ region ++ hostEnd).toList := by
  have hdots : ".s3.".toList = ".s3".toList ++ ".".toList := by decide
  simp only [hostOf, String.toList_append, hdots, List.append_assoc]

theorem slash_not_mem_host {front : String} (hfront : '/' ∉ front.toList)
    (hregion : IsRegionName region) : '/' ∉ (front ++ region ++ hostEnd).toList := by
  have hend : '/' ∉ hostEnd.toList := by decide
  simp only [String.toList_append, List.mem_append, not_or]
  exact ⟨⟨hfront, hregion.isBucketName.not_mem (by decide)⟩, hend⟩

/-- Only the beginning of a bucket's name makes its host look like one that serves all. -/
theorem startsWith_hostOf (bucket region : String) :
    (Text.startsWith "s3." (hostOf bucket region) = true ↔
      Text.startsWith "s3." (bucket ++ ".") = true) ∧
    (Text.startsWith "s3-" (hostOf bucket region) = true ↔
      Text.startsWith "s3-" bucket = true) := by
  have hdot : (bucket ++ ".").toList = bucket.toList ++ ['.'] := by
    rw [String.toList_append]
    rfl
  have hfront : "s3.".toList = "s3".toList ++ ['.'] := by decide
  have hhost : (hostOf bucket region).toList =
      bucket.toList ++ '.' :: ("s3".toList ++ ("." ++ region ++ hostEnd).toList) := by
    have hmark : ".s3".toList = '.' :: "s3".toList := by decide
    rw [toList_hostOf, hmark, List.append_assoc, List.cons_append]
  refine ⟨?_, ?_⟩
  · rw [Text.startsWith_iff, Text.startsWith_iff, hhost, hdot, hfront]
    exact Text.concat_prefix_append_cons_iff (by decide)
  · rw [Text.startsWith_iff, Text.startsWith_iff, hhost]
    exact Text.prefix_append_cons_iff (by decide)

theorem parts?_host (hbucket : IsBucketName bucket) (hregion : IsRegionName region)
    (start : String) :
    parts? (Spelling.write bucket start (.host region)) =
      if Text.startsWith "s3." (bucket ++ ".") = true ∨ Text.startsWith "s3-" bucket = true then
        some (cutSlash start)
      else (Text.breakOn ".s3".toList (hostOf bucket region).toList).map fun (front, _) =>
        (String.ofList front, start) := by
  have hfront : '/' ∉ (bucket ++ ".s3.").toList := by
    rw [String.toList_append, List.mem_append, not_or]
    exact ⟨hbucket.not_mem (by decide), by decide⟩
  rw [Spelling.write, parts?_url, ofUrl?_append (slash_not_mem_host hfront hregion), ← hostOf]
  simp only [Bool.or_eq_true, startsWith_hostOf]

/-- A bucket is read back from in front of a host unless it is disguised. -/
theorem parts?_host_of_not_disguised (hbucket : IsBucketName bucket)
    (hregion : IsRegionName region) (h : ¬ Disguised bucket) (start : String) :
    parts? (Spelling.write bucket start (.host region)) = some (bucket, start) := by
  have hmark : ".s3".toList = '.' :: "s3".toList := by decide
  rw [Disguised, not_or, not_or, hmark] at h
  obtain ⟨hserves, hdash, hinside⟩ := h
  rw [parts?_host hbucket hregion, if_neg (not_or.mpr ⟨hserves, hdash⟩), toList_hostOf, hmark,
    Text.breakOn_append_of_not_infix (by decide) hinside]
  simp only [Option.map_some, String.ofList_toList]

theorem length_completed (start : String) :
    start.toList.length ≤ (completed start).toList.length ∧
      (completed start).toList.length ≤ start.toList.length + 1 := by
  rw [completed]
  split
  · exact ⟨Nat.le_refl _, Nat.le_succ _⟩
  · rw [String.toList_append, List.length_append]
    exact ⟨Nat.le_add_right _ _, Nat.le_refl _⟩

/-- The first piece of the keys is no bucket with the same keys. -/
theorem cutSlash_ne (hbucket : bucket ≠ "") (start : String) :
    ¬ ((cutSlash start).1 = bucket ∧ completed (cutSlash start).2 = completed start) := by
  rintro ⟨hfirst, hkeys⟩
  have hpos : 0 < bucket.toList.length :=
    List.length_pos_of_ne_nil (String.toList_eq_nil_iff.not.mpr hbucket)
  have hshort := (length_completed (cutSlash start).2).2
  have hlong := (length_completed start).1
  rw [hkeys] at hshort
  by_cases hslash : '/' ∈ start.toList
  · -- the bucket and the slash behind it are missing from what is left
    obtain ⟨⟨piece, rest⟩, hcut⟩ := Option.ne_none_iff_exists'.mp
      (Text.splitOnce_eq_none_iff.not.mpr (not_not.mpr hslash))
    have hwhole := (Text.splitOnce_eq_some_iff.mp hcut).1
    rw [cutSlash, hcut, Option.getD_some] at hfirst hshort
    rw [hwhole, List.length_append, List.length_cons] at hlong
    dsimp only at hfirst hshort
    rw [hfirst] at hlong
    omega
  · rw [cutSlash, Text.splitOnce_eq_none_iff.mpr hslash, Option.getD_none] at hfirst hkeys
    have hempty : completed "" = "" := by decide
    dsimp only at hfirst hkeys
    rw [hempty] at hkeys
    rw [← hkeys, hfirst] at hlong
    simp only [String.toList_empty, List.length_nil] at hlong
    omega

/-- A disguised bucket is never read back from in front of a host. -/
theorem ne_of_disguised (hbucket : IsBucketName bucket) (hregion : IsRegionName region)
    (h : Disguised bucket) {found rest : String}
    (hparts : parts? (Spelling.write bucket start (.host region)) = some (found, rest)) :
    ¬ (found = bucket ∧ completed rest = completed start) := by
  rw [parts?_host hbucket hregion] at hparts
  split at hparts
  · obtain ⟨rfl, rfl⟩ := Prod.mk.inj (Option.some.inj hparts)
    exact cutSlash_ne hbucket.1 start
  · rename_i hplain
    have hinside : ".s3".toList <:+: bucket.toList := by
      rw [not_or] at hplain
      exact (h.resolve_left hplain.1).resolve_left hplain.2
    obtain ⟨front, behind, hbreak, hlength⟩ :=
      Text.exists_breakOn_append (by decide) hinside
        (".s3".toList ++ ("." ++ region ++ hostEnd).toList)
    rw [toList_hostOf, List.append_assoc, hbreak, Option.map_some] at hparts
    obtain ⟨rfl, rfl⟩ := Prod.mk.inj (Option.some.inj hparts)
    rintro ⟨hfound, -⟩
    rw [← hfound, String.toList_ofList] at hlength
    exact Nat.lt_irrefl _ hlength

/-! ## Spellings of one package -/

/-- What stands before the query of a spelling has no question mark. -/
theorem mark_not_mem_write (hbucket : IsBucketName bucket) (hstart : '?' ∉ start.toList)
    {spelling : Spelling} (hregion : ∀ region, spelling.region? = some region → IsRegionName region) :
    '?' ∉ (spelling.write bucket start).toList := by
  have hname : '?' ∉ bucket.toList := hbucket.not_mem (by decide)
  cases spelling with
  | scheme => simp [Spelling.write, String.toList_append, hname, hstart]
  | forced => simp [Spelling.write, String.toList_append, hname, hstart]
  | path region =>
      have hend : '?' ∉ region.toList := (hregion region rfl).isBucketName.not_mem (by decide)
      simp [Spelling.write, hostEnd, String.toList_append, hname, hstart, hend]
  | host region =>
      have hend : '?' ∉ region.toList := (hregion region rfl).isBucketName.not_mem (by decide)
      simp [Spelling.write, hostEnd, String.toList_append, hname, hstart, hend]

/-- A package is the bucket and the keys that its address is read as. -/
theorem ofPackage?_write_eq (hbucket : IsBucketName bucket) (hstart : '?' ∉ start.toList)
    {spelling : Spelling} (hregion : ∀ region, spelling.region? = some region → IsRegionName region)
    (hquery : query = "" ∨ Text.startsWith "?" query = true) :
    Address.ofPackage? (spelling.write bucket start ++ query) = some ⟨bucket, completed start⟩ ↔
      ∃ rest, parts? (spelling.write bucket start) = some (bucket, rest) ∧
        completed rest = completed start := by
  have hname : (bucket.isEmpty || bucket.toList.contains ':') = false := by
    rw [Bool.or_eq_false_iff, Bool.eq_false_iff, ne_eq, String.isEmpty_iff]
    exact ⟨hbucket.1, by simpa using hbucket.not_mem (c := ':') (by decide)⟩
  rw [ofPackage?_append (mark_not_mem_write hbucket hstart hregion) hquery,
    Option.bind_eq_some_iff]
  constructor
  · rintro ⟨⟨found, rest⟩, hparts, haddress⟩
    dsimp only at haddress
    split at haddress
    · cases haddress
    · obtain ⟨rfl, hkeys⟩ := Address.mk.inj (Option.some.inj haddress)
      exact ⟨rest, hparts, hkeys⟩
  · rintro ⟨rest, hparts, hkeys⟩
    exact ⟨(bucket, rest), hparts, by simp only [hname, hkeys, Bool.false_eq_true, if_false]⟩

/-- Every spelling of a package, with a query or without, is read as its bucket and the
    beginning of its keys, but one in front of a host exactly if the bucket is not disguised. -/
theorem spelling_read_back_iff (hbucket : IsBucketName bucket) (hstart : '?' ∉ start.toList)
    (spelling : Spelling) (hregion : ∀ region, spelling.region? = some region → IsRegionName region)
    (hquery : query = "" ∨ Text.startsWith "?" query = true) :
    Address.ofPackage? (spelling.write bucket start ++ query) = some ⟨bucket, completed start⟩ ↔
      ∀ region, spelling = .host region → ¬ Disguised bucket := by
  rw [ofPackage?_write_eq hbucket hstart hregion hquery]
  have hslash : '/' ∉ bucket.toList := hbucket.not_mem (by decide)
  cases spelling with
  | scheme =>
      have hparts := parts?_scheme (bucket ++ "/" ++ start)
      rw [cutSlash_append hslash] at hparts
      exact iff_of_true ⟨start, hparts, rfl⟩ (by simp)
  | forced =>
      have hparts := parts?_forced hslash (hbucket.not_mem (by decide)) start
      exact iff_of_true ⟨start, hparts, rfl⟩ (by simp)
  | path region =>
      have hserves : Text.startsWith "s3." ("s3." ++ region ++ hostEnd) = true := by
        rw [Text.startsWith_iff, String.toList_append, String.toList_append, List.append_assoc]
        exact List.prefix_append _ _
      have hparts : parts? (Spelling.write bucket start (.path region)) = some (bucket, start) := by
        rw [Spelling.write, parts?_url,
          ofUrl?_append (slash_not_mem_host (by decide) (hregion region rfl)),
          cutSlash_append hslash, hserves, Bool.true_or, if_pos rfl]
      exact iff_of_true ⟨start, hparts, rfl⟩ (by simp)
  | host region =>
      have hname := hregion region rfl
      constructor
      · rintro ⟨rest, hparts, hkeys⟩ _ _ disguised
        exact ne_of_disguised hbucket hname disguised hparts ⟨rfl, hkeys⟩
      · intro h
        exact ⟨start, parts?_host_of_not_disguised hbucket hname (h region rfl) start, rfl⟩

theorem spelling_read_back_iff_versioned :
    IsBucketName "logs-s3.s.3" ∧ IsRegionName "eu-west-1" ∧ ¬ Disguised "logs-s3.s.3" ∧
      Spelling.write "logs-s3.s.3" "s3.net" (.host "eu-west-1") ++ "?version=2" =
        "s3::https://logs-s3.s.3.s3.eu-west-1.amazonaws.com/s3.net?version=2" ∧
      Address.ofPackage? "s3::https://logs-s3.s.3.s3.eu-west-1.amazonaws.com/s3.net?version=2" =
        some ⟨"logs-s3.s.3", "s3.net/"⟩ := by
  have hbucket : IsBucketName "logs-s3.s.3" := by decide +kernel
  have hregion : IsRegionName "eu-west-1" := by decide +kernel
  have hplain : ¬ Disguised "logs-s3.s.3" := by
    unfold Disguised
    decide
  have hwrite : Spelling.write "logs-s3.s.3" "s3.net" (.host "eu-west-1") ++ "?version=2" =
      "s3::https://logs-s3.s.3.s3.eu-west-1.amazonaws.com/s3.net?version=2" := by decide
  have hread : Address.ofPackage?
      (Spelling.write "logs-s3.s.3" "s3.net" (.host "eu-west-1") ++ "?version=2") =
        some ⟨"logs-s3.s.3", completed "s3.net"⟩ :=
    (spelling_read_back_iff hbucket (by decide) (.host "eu-west-1")
      (fun region h => Option.some.inj h ▸ hregion) (Or.inr (by decide))).mpr fun _ _ => hplain
  rw [hwrite] at hread
  exact ⟨hbucket, hregion, hplain, hwrite, hread⟩

/-- A bucket that has the mark of a host in its name is read as a shorter one where it stands in
    front of a host. -/
theorem exists_spelling_misread :
    ∃ bucket start region : String, IsBucketName bucket ∧ '?' ∉ start.toList ∧
      Text.startsWith "/" start = false ∧ IsRegionName region ∧
      Address.ofPackage? (Spelling.write bucket start .scheme) =
        some ⟨bucket, completed start⟩ ∧
      Address.ofPackage? (Spelling.write bucket start (.host region)) = some ⟨"my", "vpc/net/"⟩ ∧
      bucket ≠ "my" :=
  ⟨"my.s3bucket", "vpc/net", "eu-west-1", by decide +kernel, by decide, by decide,
    by decide +kernel, by decide, by decide, by decide⟩

end S3
end HpcBlueprint
