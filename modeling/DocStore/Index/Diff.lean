import DocStore.Index.Descriptor

/-! # Differences between lists of indexes

What has to be created and dropped so that the indexes that exist become those that are desired.
Indexes are told apart by kind and field; each desired index is created once, and every existing
index that is not desired is dropped. -/
set_option autoImplicit false

namespace DocStore

structure IndexDiff where
  /-- Desired indexes that do not exist, in desired order. -/
  create : List IndexDescriptor
  /-- Existing indexes that are not desired, in catalog order. -/
  drop : List IndexDescriptor
deriving DecidableEq

namespace IndexDiff

def isEmpty (d : IndexDiff) : Bool := d.create.isEmpty && d.drop.isEmpty

/-- Whether a list has a descriptor of the same index. -/
def covers (ds : List IndexDescriptor) (d : IndexDescriptor) : Bool := ds.any d.same

/-- The descriptors that neither `known` nor an earlier one of the list covers. -/
def firstsBeyond (known : List IndexDescriptor) : List IndexDescriptor → List IndexDescriptor
  | [] => []
  | d :: ds =>
    if covers known d then firstsBeyond known ds
    else d :: firstsBeyond (known ++ [d]) ds

def between (desired existing : List IndexDescriptor) : IndexDiff where
  create := firstsBeyond existing desired
  drop := existing.filter fun d => !covers desired d

end IndexDiff
end DocStore
