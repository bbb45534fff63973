import BucketMount.Helper.Argv
import BucketMount.Proofs.Text.Cut

/-!
# Flags do not disturb the other arguments

The flags of a directive are whatever the job owner writes, and become any
number of arguments. What stands before and after them stays in its place
(`Segments`): before them what every helper of the site gets, after them the
bucket, if one is named, and the path as the last one. So of two directives for
the same mount the helper is told the same but for the flags
(`argv_undisturbed`).
-/

namespace BucketMount

/-- A bucket that is named differs from all buckets, since its name is not empty. -/
theorem Bucket.helperArg_eq_iff {b b' : Bucket} (hb : b.Admissible) (hb' : b'.Admissible) :
    b.helperArg = b'.helperArg ↔ b.scope = b'.scope := by
  cases b with
  | implicit | all =>
    cases b' with
    | implicit | all => exact iff_of_true rfl rfl
    | named name => exact iff_of_false nofun fun h => hb'.1 h.symm
  | named name =>
    cases b' with
    | implicit | all => exact iff_of_false nofun fun h => hb.1 h
    | named name' => exact Option.some_inj

namespace Helper

/-- What every helper of the site gets first. -/
def opening (c : Config) (id : Identity) : List Text := baseline c id ++ c.helperOptions

/-- What is to be mounted, where that is said, and where. -/
def target (bucket : Bucket) (path : Text) : List Text :=
  match bucket with
  | .named name => [name, path]
  | .implicit | .all => [path]

theorem target_eq (bucket : Bucket) (path : Text) :
    target bucket path = bucket.helperArg.toList ++ [path] := by
  cases bucket <;> rfl

theorem target_eq_target {d e : Directive} (path : e.path = d.path)
    (scope : e.bucket.scope = d.bucket.scope) :
    target e.bucket e.path = target d.bucket d.path := by
  have hbucket : e.bucket.helperArg = d.bucket.helperArg :=
    (Bucket.helperArg_eq_iff e.admissible.bucket d.admissible.bucket).mpr scope
  rw [target_eq, target_eq, hbucket, path]

/-- The arguments of the helper for a directive, where `words` are those that its
flags make. -/
structure Segments (c : Config) (id : Identity) (d : Directive) (words args : List Text) :
    Prop where
  args_eq : args = opening c id ++ words ++ target d.bucket d.path
  /-- Nothing of the directive is in what every helper gets. -/
  opening_eq : opening c id =
    [c.helperBinary, "--foreground".toList, "--uid".toList, Text.decimal id.uid, "--gid".toList,
      Text.decimal id.gid, "--file-mode=".toList ++ Text.octal c.fileMode,
      "--dir-mode=".toList ++ Text.octal c.dirMode, "--log-format=".toList ++ c.logFormat] ++
    c.helperOptions
  worded : Text.Worded (d.flags.getD []) words
  ne_nil : ∀ w ∈ words, w ≠ []
  not_isBlank : ∀ w ∈ words, ∀ x ∈ w, ¬Text.isBlank x
  flatten_eq : words.flatten = (d.flags.getD []).filter fun x => !Text.isBlank x
  getLast?_eq : args.getLast? = some d.path

theorem argv_eq (c : Config) (id : Identity) (d : Directive) :
    argv c id d = opening c id ++ d.flagArgs ++ target d.bucket d.path := by
  rw [argv, opening, target_eq, List.append_assoc]

theorem segments (c : Config) (id : Identity) (d : Directive) :
    Segments c id d d.flagArgs (argv c id d) where
  args_eq := argv_eq c id d
  opening_eq := rfl
  worded := Text.worded_words _
  ne_nil := (Text.worded_words _).ne_nil
  not_isBlank := (Text.worded_words _).solid
  flatten_eq := (Text.worded_words _).flatten_eq
  getLast?_eq := List.getLast?_concat

/-- **Flags do not disturb the other arguments.** The arguments of a helper are
what every helper of the site gets, then the words of the flags, whole and in
order, then the bucket if one is named, and last the path. If two directives are
for the same path and the same bucket, or both for all buckets, then they differ
in the words of the flags only, and not at all if these are the same. -/
theorem argv_undisturbed (c : Config) (id : Identity) (d : Directive) :
    (∃ words, Segments c id d words (argv c id d)) ∧
    ∀ e : Directive, e.path = d.path → e.bucket.scope = d.bucket.scope →
      ∃ words words' rest, Text.Worded (d.flags.getD []) words ∧
        Text.Worded (e.flags.getD []) words' ∧
        argv c id d = opening c id ++ words ++ rest ∧
        argv c id e = opening c id ++ words' ++ rest ∧
        (argv c id e = argv c id d ↔ words' = words) := by
  refine ⟨⟨_, segments c id d⟩, fun e path scope => ?_⟩
  have hd := segments c id d
  have he := segments c id e
  have hargs : argv c id e = opening c id ++ e.flagArgs ++ target d.bucket d.path := by
    rw [he.args_eq, target_eq_target path scope]
  refine ⟨_, _, _, hd.worded, he.worded, hd.args_eq, hargs, ?_⟩
  rw [hargs, hd.args_eq, List.append_left_inj, List.append_right_inj]

/-- A mount is asked for with flags, with the same flags between other blanks,
and with blanks only. -/
theorem argv_undisturbed_blanks :
    ∃ d e f : Directive,
      d.flags = some " --o=a:b\u2003--x ".toList ∧ e.flags = some "--o=a:b --x".toList ∧
      f.flags = some " ".toList ∧ e.path = d.path ∧ e.bucket.scope = d.bucket.scope ∧
      f.path = d.path ∧ f.bucket.scope = d.bucket.scope ∧
      ∀ id, argv .standard id e = argv .standard id d ∧
        ∃ rest, argv .standard id d =
            opening .standard id ++ ["--o=a:b".toList, "--x".toList] ++ rest ∧
          argv .standard id f = opening .standard id ++ rest := by
  let d : Directive := ⟨.implicit, "/m".toList, some " --o=a:b\u2003--x ".toList,
    ⟨trivial, by decide, by decide, by decide, by decide, by decide⟩⟩
  let e : Directive := ⟨.all, "/m".toList, some "--o=a:b --x".toList,
    ⟨trivial, by decide, by decide, by decide, by decide, by decide⟩⟩
  let f : Directive := ⟨.implicit, "/m".toList, some " ".toList,
    ⟨trivial, by decide, by decide, by decide, by decide, by decide⟩⟩
  refine ⟨d, e, f, rfl, rfl, rfl, rfl, rfl, rfl, rfl, fun id => ⟨?_, ?_⟩⟩
  · obtain ⟨words, words', rest, hd, he, -, -, hsame⟩ := (argv_undisturbed .standard id d).2 e rfl rfl
    rw [hsame, ← Text.worded_iff.mp hd, ← Text.worded_iff.mp he]
    decide
  · obtain ⟨words, words', rest, hd, hf, hargs, hargs', -⟩ :=
      (argv_undisturbed .standard id d).2 f rfl rfl
    have hwords : words = ["--o=a:b".toList, "--x".toList] := by
      rw [← Text.worded_iff.mp hd]
      decide
    have hwords' : words' = [] := by
      rw [← Text.worded_iff.mp hf]
      decide
    rw [hargs, hargs', hwords, hwords', List.append_nil]
    exact ⟨rest, rfl, rfl⟩

end Helper
end BucketMount
