import CollectionSchema.Layout

/-!
# The preamble

What generated code needs once, in front of all artifacts: a mark for arguments that were not
passed, and the id of the document above a snapshot.
-/

namespace CollectionSchema.Artifact

open Layout

/-- The code in front of all artifacts. -/
def preamble : Script :=
  [.line "# GENERATED CODE - DO NOT MODIFY BY HAND",
    .line "# ruff: noqa",
    blank,
    .line "from __future__ import annotations",
    blank,
    .line "from typing import Any",
    blank,
    blank]
  ++ block "class _Sentinel:" [.line "\"\"\"Marks arguments that were not passed.\"\"\""]
  ++ [blank,
    blank,
    .line "_sentinel = _Sentinel()",
    blank,
    blank]
  ++ block "def _parent_id(snapshot) -> str | None:" [
    .line "parent = snapshot.reference.parent.parent",
    .line "return parent.id if parent is not None else None"]

end CollectionSchema.Artifact
