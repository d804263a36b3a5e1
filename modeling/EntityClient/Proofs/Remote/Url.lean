import EntityClient.Json.Token
import EntityClient.Remote.Http
import Mathlib.Data.List.DropRight

/-!
URLs, read back. Names and values of parameters are percent-encoded, so none of the characters that
hold a URL together stands in them, and decoding gives back what was encoded. Neither the root nor
the path of a URL is encoded, so a question mark can stand in them too; but none stands in the
parameters, and so what is behind the last one always gives back the parameters, and what is before
it the path, without the slashes in front of it.
-/

namespace EntityClient

namespace Text

/-- The bytes that percent-encoded text stands for. -/
def percentBytes? : List Char → Option (List UInt8)
  | [] => some []
  | '%' :: a :: b :: rest => do
      let high ← Json.Scan.hexDigit? a
      let low ← Json.Scan.hexDigit? b
      return UInt8.ofNat (16 * high + low) :: (← percentBytes? rest)
  | c :: rest => do return String.utf8EncodeChar c ++ (← percentBytes? rest)

/-- The text behind a percent-encoding; none if its bytes are no UTF-8. -/
def percentDecode? (cs : List Char) : Option String := do
  let chars ← (← percentBytes? cs).toByteArray.utf8Decode?
  return String.ofList chars.toList

theorem hexDigit?_upperHexDigit {n : Nat} (small : n < 16) :
    Json.Scan.hexDigit? (upperHexDigit n) = some n := by
  revert n
  decide

/-- A byte that stands for itself is no separator, and its character is encoded as that byte. -/
theorem unreserved_char {b : UInt8} (unreserved : isUnreserved b = true) :
    Char.ofNat b.toNat ∉ ['%', '&', '='] ∧ String.utf8EncodeChar (Char.ofNat b.toNat) = [b] := by
  have all : ∀ n < 256, isUnreserved (UInt8.ofNat n) = true →
      Char.ofNat n ∉ ['%', '&', '='] ∧ String.utf8EncodeChar (Char.ofNat n) = [UInt8.ofNat n] := by
    decide +kernel
  have hb := all b.toNat b.toNat_lt
  rw [UInt8.ofNat_toNat] at hb
  exact hb unreserved

theorem percentBytes?_cons {c : Char} (hc : c ≠ '%') (rest : List Char) :
    percentBytes? (c :: rest) = (percentBytes? rest).map (String.utf8EncodeChar c ++ ·) := by
  rw [percentBytes?]
  · cases percentBytes? rest <;> rfl
  · exact fun a b more percent _ => hc percent

theorem percentBytes?_percentByte (b : UInt8) (rest : List Char) :
    percentBytes? (percentByte b ++ rest) = (percentBytes? rest).map (b :: ·) := by
  unfold percentByte
  split
  next unreserved =>
    obtain ⟨plain, encoded⟩ := unreserved_char unreserved
    rw [List.singleton_append, percentBytes?_cons (by simp_all), encoded]
    rfl
  next =>
    have high : b.toNat / 16 < 16 := by have := b.toNat_lt; omega
    have low : b.toNat % 16 < 16 := Nat.mod_lt _ (by decide)
    have whole : 16 * (b.toNat / 16) + b.toNat % 16 = b.toNat := Nat.div_add_mod _ _
    simp only [List.cons_append, List.nil_append, percentBytes?, hexDigit?_upperHexDigit high,
      hexDigit?_upperHexDigit low, Option.bind_eq_bind, Option.bind_some, whole, UInt8.ofNat_toNat]
    cases percentBytes? rest <;> rfl

theorem percentBytes?_flatMap (bytes : List UInt8) :
    percentBytes? (bytes.flatMap percentByte) = some bytes := by
  induction bytes with
  | nil => rfl
  | cons b rest ih => rw [List.flatMap_cons, percentBytes?_percentByte, ih, Option.map_some]

theorem percentDecode?_percentEncode (s : String) : percentDecode? (percentEncode s) = some s := by
  have decoded : (s.toList.flatMap String.utf8EncodeChar).toByteArray.utf8Decode? =
      some s.toList.toArray := List.utf8Decode?_utf8Encode
  rw [percentDecode?, percentEncode, percentBytes?_flatMap]
  simp only [Option.bind_eq_bind, Option.bind_some, decoded]
  exact congrArg some (String.ofList_toList)

/-- What is encoded holds none of the characters that hold the query of a URL together. -/
theorem not_mem_percentEncode {c : Char} (sep : c ∈ ['&', '=', '?']) (s : String) :
    c ∉ percentEncode s := by
  have bytes : ∀ n < 256,
      (['&', '=', '?'].all fun c => c ∉ percentByte (UInt8.ofNat n)) = true := by decide +kernel
  intro mem
  obtain ⟨b, -, hb⟩ := List.mem_flatMap.mp mem
  have none := of_decide_eq_true (List.all_eq_true.mp (bytes b.toNat b.toNat_lt) c sep)
  rw [UInt8.ofNat_toNat] at none
  exact none hb

end Text

namespace Account

/-- A parameter of a query, read back. -/
def readParameter? (cs : List Char) : Option (String × String) := do
  let name ← Text.percentDecode? (cs.takeWhile (· != '='))
  let value ← Text.percentDecode? ((cs.dropWhile (· != '=')).drop 1)
  return (name, value)

def readQuery? (cs : List Char) : Option (List (String × String)) :=
  (cs.splitOn '&').mapM readParameter?

/-- The path and the parameters of a URL below the account's root. -/
def readUrl? (a : Account) (url : String) : Option (String × List (String × String)) := do
  let behind := url.toList.drop a.root.toList.length
  let parameters ← readQuery? ((behind.dropWhile (· != '?')).drop 1)
  return (String.ofList ('/' :: behind.takeWhile (· != '?')), parameters)

/-- The path with one slash for all the slashes in front of it. -/
def oneSlash (path : String) : String :=
  String.ofList ('/' :: path.toList.dropWhile (· == '/'))

/-- Of a path that starts with a slash nothing is lost unless a second one follows. -/
theorem oneSlash_eq_iff {path : String} {rest : List Char} (slash : path.toList = '/' :: rest) :
    oneSlash path = path ↔ rest.head? ≠ some '/' := by
  rw [← String.toList_inj, oneSlash, String.toList_ofList, slash]
  cases rest with
  | nil => simp
  | cons c more =>
      by_cases hc : c = '/'
      · subst hc
        have short : (more.dropWhile (· == '/')).length ≤ more.length :=
          (List.dropWhile_suffix _).length_le
        constructor
        · intro same
          have lengths := congrArg List.length same
          simp at lengths
          omega
        · exact fun ne => absurd rfl ne
      · simp [hc]

theorem takeWhile_append_sep {c : Char} {l : List Char} (h : c ∉ l) (rest : List Char) :
    (l ++ c :: rest).takeWhile (· != c) = l ∧ (l ++ c :: rest).dropWhile (· != c) = c :: rest := by
  have all : ∀ x ∈ l, (x != c) = true := fun x hx => bne_iff_ne.mpr fun heq => h (heq ▸ hx)
  rw [List.takeWhile_append_of_pos all, List.dropWhile_append_of_pos all]
  simp

theorem readParameter?_parameterText (p : String × String) :
    readParameter? (parameterText p) = some p := by
  obtain ⟨front, back⟩ := takeWhile_append_sep
    (Text.not_mem_percentEncode (c := '=') (by decide) p.1) (Text.percentEncode p.2)
  simp only [readParameter?, parameterText, front, back, List.drop_one, List.tail_cons,
    Text.percentDecode?_percentEncode]
  rfl

theorem not_mem_parameterText {c : Char} (sep : c ∈ ['&', '?']) (p : String × String) :
    c ∉ parameterText p := by
  have either : c = '&' ∨ c = '?' := by simpa using sep
  obtain ⟨among, ne⟩ : c ∈ ['&', '=', '?'] ∧ c ≠ '=' := by
    rcases either with rfl | rfl <;> decide
  have name := Text.not_mem_percentEncode among p.1
  have value := Text.not_mem_percentEncode among p.2
  simp [parameterText, name, value, ne]

/-- Name and value are held together by the only equals sign. -/
theorem count_parameterText (p : String × String) : (parameterText p).count '=' = 1 := by
  have without (s : String) : (Text.percentEncode s).count '=' = 0 :=
    List.count_eq_zero.mpr (Text.not_mem_percentEncode (by decide) s)
  rw [parameterText, List.count_append, List.count_cons_self, without, without]

theorem mapM_readParameter? (query : List (String × String)) :
    (query.map parameterText).mapM readParameter? = some query := by
  induction query with
  | nil => rfl
  | cons p rest ih =>
      rw [List.map_cons, List.mapM_cons, readParameter?_parameterText, ih]
      rfl

theorem splitOn_queryText {query : List (String × String)} (ne : query ≠ []) :
    (queryText query).splitOn '&' = query.map parameterText := by
  refine List.splitOn_intercalate '&' ?_ (by simpa using ne)
  intro text mem
  obtain ⟨p, -, rfl⟩ := List.mem_map.mp mem
  exact not_mem_parameterText (by decide) p

theorem readQuery?_queryText {query : List (String × String)} (ne : query ≠ []) :
    readQuery? (queryText query) = some query := by
  rw [readQuery?, splitOn_queryText ne, mapM_readParameter?]

theorem parameters_ne_nil (a : Account) (query : List (String × String)) :
    a.parameters query ≠ [] := by
  unfold parameters
  split
  next given =>
    intro empty
    rw [empty] at given
    cases given
  next => exact List.cons_ne_nil _ _

/-- The key is all that is sent beyond the query. -/
theorem filter_parameters (a : Account) (query : List (String × String)) :
    (a.parameters query).filter (·.1 != "apikey") = query.filter (·.1 != "apikey") := by
  unfold parameters
  split
  · rfl
  · simp

/-! What a URL shows -/

/-- The path without the slashes in front of it. -/
def trimmed (path : String) : List Char := path.toList.dropWhile (· == '/')

theorem mark_not_mem_trimmed {path : String} (plain : '?' ∉ path.toList) : '?' ∉ trimmed path :=
  fun mem => plain ((List.dropWhile_suffix _).subset mem)

theorem toList_url (a : Account) (path : String) (query : List (String × String)) :
    (a.url path query).toList =
      a.root.toList ++ trimmed path ++ '?' :: queryText (a.parameters query) := by
  simp [url, trimmed]

/-- A path without question mark and any query are read back from their URL. -/
theorem readUrl?_url (a : Account) {path : String} (plain : '?' ∉ path.toList)
    (query : List (String × String)) :
    a.readUrl? (a.url path query) = some (oneSlash path, a.parameters query) := by
  have behind : (a.url path query).toList.drop a.root.toList.length =
      trimmed path ++ '?' :: queryText (a.parameters query) := by
    rw [toList_url, List.append_assoc, List.drop_left]
  obtain ⟨front, back⟩ :=
    takeWhile_append_sep (mark_not_mem_trimmed plain) (queryText (a.parameters query))
  simp only [readUrl?, behind, front, back, List.drop_one, List.tail_cons,
    readQuery?_queryText (parameters_ne_nil a query)]
  rfl

/-- What stands behind the last question mark of a URL. -/
def behindMark (url : String) : List Char := url.toList.rtakeWhile (· != '?')

/-- The URL is made of the root of the account, the path and the parameters, and it shows which:
behind its last question mark stand the parameters, split by ampersands, with one equals sign in
each. Where neither root nor path has a question mark, that one is the first as well. -/
structure Addresses (a : Account) (path : String) (query : List (String × String))
    (url : String) : Prop where
  parts : url.toList = a.root.toList ++ trimmed path ++ '?' :: behindMark url
  unmarked : '?' ∉ behindMark url
  pairs : ∀ text ∈ (behindMark url).splitOn '&', text.count '=' = 1
  decoded : readQuery? (behindMark url) =
    some (if "apikey" ∈ query.map Prod.fst then query else ("apikey", a.key) :: query)
  first : '?' ∉ a.root.toList → '?' ∉ path.toList →
    (url.toList.dropWhile (· != '?')).drop 1 = behindMark url

theorem getLast?_root (a : Account) : a.root.toList.getLast? = some '/' := by
  have slash (s : String) : (s ++ "/").toList.getLast? = some '/' := by
    rw [String.toList_append]
    exact List.getLast?_concat
  unfold root
  split
  · split
    next ends => exact ends
    next => exact slash _
  · exact slash _

theorem parameters_eq (a : Account) (query : List (String × String)) :
    a.parameters query =
      if "apikey" ∈ query.map Prod.fst then query else ("apikey", a.key) :: query := by
  have given : (query.any fun p => p.1 == "apikey") = true ↔ "apikey" ∈ query.map Prod.fst := by
    simp
  simp only [parameters, given]

theorem mark_not_mem_queryText (query : List (String × String)) : '?' ∉ queryText query := by
  have plain (p : String × String) : '?' ∉ parameterText p := not_mem_parameterText (by decide) p
  induction query with
  | nil => exact List.not_mem_nil
  | cons p rest ih =>
      cases rest with
      | nil => simpa [queryText, List.intercalate] using plain p
      | cons p' more =>
          have text : queryText (p :: p' :: more) =
              parameterText p ++ '&' :: queryText (p' :: more) := by
            simp [queryText, List.intercalate]
          simp [text, plain p, ih]

theorem rtakeWhile_append_sep {c : Char} {l : List Char} (h : c ∉ l) (front : List Char) :
    (front ++ c :: l).rtakeWhile (· != c) = l := by
  -- the last separator is the first one of the text read backwards
  have back : (front ++ c :: l).reverse = l.reverse ++ c :: front.reverse := by simp
  rw [List.rtakeWhile, back, (takeWhile_append_sep (by simpa using h) front.reverse).1,
    List.reverse_reverse]

theorem behindMark_url (a : Account) (path : String) (query : List (String × String)) :
    behindMark (a.url path query) = queryText (a.parameters query) := by
  rw [behindMark, toList_url, rtakeWhile_append_sep (mark_not_mem_queryText _)]

theorem addresses_url (a : Account) (path : String) (query : List (String × String)) :
    a.Addresses path query (a.url path query) where
  parts := by rw [behindMark_url, toList_url]
  unmarked := by
    rw [behindMark_url]
    exact mark_not_mem_queryText _
  pairs text mem := by
    rw [behindMark_url, splitOn_queryText (a.parameters_ne_nil query)] at mem
    obtain ⟨p, -, rfl⟩ := List.mem_map.mp mem
    exact count_parameterText p
  decoded := by
    rw [behindMark_url, readQuery?_queryText (a.parameters_ne_nil query), parameters_eq]
  first root path := by
    have plain : '?' ∉ a.root.toList ++ trimmed _ := fun mem =>
      (List.mem_append.mp mem).elim root (mark_not_mem_trimmed path)
    rw [behindMark_url, toList_url, (takeWhile_append_sep plain _).2, List.drop_one, List.tail_cons]

/-- The question mark of the path and those of the parameter are none that the URL is cut at. -/
example : Account.behindMark (Account.url { subdomain := "demo", key := "key" } "//member?x"
    [("a?", "b&c=d")]) = "apikey=key&a%3F=b%26c%3Dd".toList := by decide +kernel

/-- A URL addresses one path and one list of parameters. -/
theorem Addresses.unique {a : Account} {path path' url : String}
    {query query' : List (String × String)} (h : a.Addresses path query url)
    (h' : a.Addresses path' query' url) :
    trimmed path = trimmed path' ∧ a.parameters query = a.parameters query' := by
  constructor
  · have same := h.parts.symm.trans h'.parts
    exact List.append_cancel_left (List.append_cancel_right same)
  · have same := Option.some.inj (h.decoded.symm.trans h'.decoded)
    rwa [parameters_eq, parameters_eq]

theorem url_eq_iff (a : Account) {path path' : String} {query query' : List (String × String)} :
    a.url path query = a.url path' query' ↔
      trimmed path = trimmed path' ∧ a.parameters query = a.parameters query' := by
  constructor
  · intro same
    exact (addresses_url a path query).unique (same ▸ addresses_url a path' query')
  · rintro ⟨paths, parameters⟩
    rw [← String.toList_inj, toList_url, toList_url, paths, parameters]

end Account
end EntityClient
