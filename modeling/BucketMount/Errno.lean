import BucketMount.Text.Basic

/-!
# Error numbers of system calls

The error numbers of Linux, with the number, the name and the wording of each. A number that Linux does not use reads
as `Errno.unknown`; every other one is read back from its number (`Errno.ofNumber_number`).
-/

namespace BucketMount

/-- What a system call reports when it fails. -/
inductive Errno where
  | unknown
  | eperm
  | enoent
  | esrch
  | eintr
  | eio
  | enxio
  | e2big
  | enoexec
  | ebadf
  | echild
  | eagain
  | enomem
  | eacces
  | efault
  | enotblk
  | ebusy
  | eexist
  | exdev
  | enodev
  | enotdir
  | eisdir
  | einval
  | enfile
  | emfile
  | enotty
  | etxtbsy
  | efbig
  | enospc
  | espipe
  | erofs
  | emlink
  | epipe
  | edom
  | erange
  | edeadlk
  | enametoolong
  | enolck
  | enosys
  | enotempty
  | eloop
  | enomsg
  | eidrm
  | echrng
  | el2nsync
  | el3hlt
  | el3rst
  | elnrng
  | eunatch
  | enocsi
  | el2hlt
  | ebade
  | ebadr
  | exfull
  | enoano
  | ebadrqc
  | ebadslt
  | ebfont
  | enostr
  | enodata
  | etime
  | enosr
  | enonet
  | enopkg
  | eremote
  | enolink
  | eadv
  | esrmnt
  | ecomm
  | eproto
  | emultihop
  | edotdot
  | ebadmsg
  | eoverflow
  | enotuniq
  | ebadfd
  | eremchg
  | elibacc
  | elibbad
  | elibscn
  | elibmax
  | elibexec
  | eilseq
  | erestart
  | estrpipe
  | eusers
  | enotsock
  | edestaddrreq
  | emsgsize
  | eprototype
  | enoprotoopt
  | eprotonosupport
  | esocktnosupport
  | eopnotsupp
  | epfnosupport
  | eafnosupport
  | eaddrinuse
  | eaddrnotavail
  | enetdown
  | enetunreach
  | enetreset
  | econnaborted
  | econnreset
  | enobufs
  | eisconn
  | enotconn
  | eshutdown
  | etoomanyrefs
  | etimedout
  | econnrefused
  | ehostdown
  | ehostunreach
  | ealready
  | einprogress
  | estale
  | euclean
  | enotnam
  | enavail
  | eisnam
  | eremoteio
  | edquot
  | enomedium
  | emediumtype
  | ecanceled
  | enokey
  | ekeyexpired
  | ekeyrevoked
  | ekeyrejected
  | eownerdead
  | enotrecoverable
  | erfkill
  | ehwpoison
deriving DecidableEq, Repr

namespace Errno

/-- The number the system uses; `unknown` has the number of success. -/
def number : Errno → Nat
  | unknown => 0
  | eperm => 1
  | enoent => 2
  | esrch => 3
  | eintr => 4
  | eio => 5
  | enxio => 6
  | e2big => 7
  | enoexec => 8
  | ebadf => 9
  | echild => 10
  | eagain => 11
  | enomem => 12
  | eacces => 13
  | efault => 14
  | enotblk => 15
  | ebusy => 16
  | eexist => 17
  | exdev => 18
  | enodev => 19
  | enotdir => 20
  | eisdir => 21
  | einval => 22
  | enfile => 23
  | emfile => 24
  | enotty => 25
  | etxtbsy => 26
  | efbig => 27
  | enospc => 28
  | espipe => 29
  | erofs => 30
  | emlink => 31
  | epipe => 32
  | edom => 33
  | erange => 34
  | edeadlk => 35
  | enametoolong => 36
  | enolck => 37
  | enosys => 38
  | enotempty => 39
  | eloop => 40
  | enomsg => 42
  | eidrm => 43
  | echrng => 44
  | el2nsync => 45
  | el3hlt => 46
  | el3rst => 47
  | elnrng => 48
  | eunatch => 49
  | enocsi => 50
  | el2hlt => 51
  | ebade => 52
  | ebadr => 53
  | exfull => 54
  | enoano => 55
  | ebadrqc => 56
  | ebadslt => 57
  | ebfont => 59
  | enostr => 60
  | enodata => 61
  | etime => 62
  | enosr => 63
  | enonet => 64
  | enopkg => 65
  | eremote => 66
  | enolink => 67
  | eadv => 68
  | esrmnt => 69
  | ecomm => 70
  | eproto => 71
  | emultihop => 72
  | edotdot => 73
  | ebadmsg => 74
  | eoverflow => 75
  | enotuniq => 76
  | ebadfd => 77
  | eremchg => 78
  | elibacc => 79
  | elibbad => 80
  | elibscn => 81
  | elibmax => 82
  | elibexec => 83
  | eilseq => 84
  | erestart => 85
  | estrpipe => 86
  | eusers => 87
  | enotsock => 88
  | edestaddrreq => 89
  | emsgsize => 90
  | eprototype => 91
  | enoprotoopt => 92
  | eprotonosupport => 93
  | esocktnosupport => 94
  | eopnotsupp => 95
  | epfnosupport => 96
  | eafnosupport => 97
  | eaddrinuse => 98
  | eaddrnotavail => 99
  | enetdown => 100
  | enetunreach => 101
  | enetreset => 102
  | econnaborted => 103
  | econnreset => 104
  | enobufs => 105
  | eisconn => 106
  | enotconn => 107
  | eshutdown => 108
  | etoomanyrefs => 109
  | etimedout => 110
  | econnrefused => 111
  | ehostdown => 112
  | ehostunreach => 113
  | ealready => 114
  | einprogress => 115
  | estale => 116
  | euclean => 117
  | enotnam => 118
  | enavail => 119
  | eisnam => 120
  | eremoteio => 121
  | edquot => 122
  | enomedium => 123
  | emediumtype => 124
  | ecanceled => 125
  | enokey => 126
  | ekeyexpired => 127
  | ekeyrevoked => 128
  | ekeyrejected => 129
  | eownerdead => 130
  | enotrecoverable => 131
  | erfkill => 132
  | ehwpoison => 133

def ofNumber : Nat → Errno
  | 1 => eperm
  | 2 => enoent
  | 3 => esrch
  | 4 => eintr
  | 5 => eio
  | 6 => enxio
  | 7 => e2big
  | 8 => enoexec
  | 9 => ebadf
  | 10 => echild
  | 11 => eagain
  | 12 => enomem
  | 13 => eacces
  | 14 => efault
  | 15 => enotblk
  | 16 => ebusy
  | 17 => eexist
  | 18 => exdev
  | 19 => enodev
  | 20 => enotdir
  | 21 => eisdir
  | 22 => einval
  | 23 => enfile
  | 24 => emfile
  | 25 => enotty
  | 26 => etxtbsy
  | 27 => efbig
  | 28 => enospc
  | 29 => espipe
  | 30 => erofs
  | 31 => emlink
  | 32 => epipe
  | 33 => edom
  | 34 => erange
  | 35 => edeadlk
  | 36 => enametoolong
  | 37 => enolck
  | 38 => enosys
  | 39 => enotempty
  | 40 => eloop
  | 42 => enomsg
  | 43 => eidrm
  | 44 => echrng
  | 45 => el2nsync
  | 46 => el3hlt
  | 47 => el3rst
  | 48 => elnrng
  | 49 => eunatch
  | 50 => enocsi
  | 51 => el2hlt
  | 52 => ebade
  | 53 => ebadr
  | 54 => exfull
  | 55 => enoano
  | 56 => ebadrqc
  | 57 => ebadslt
  | 59 => ebfont
  | 60 => enostr
  | 61 => enodata
  | 62 => etime
  | 63 => enosr
  | 64 => enonet
  | 65 => enopkg
  | 66 => eremote
  | 67 => enolink
  | 68 => eadv
  | 69 => esrmnt
  | 70 => ecomm
  | 71 => eproto
  | 72 => emultihop
  | 73 => edotdot
  | 74 => ebadmsg
  | 75 => eoverflow
  | 76 => enotuniq
  | 77 => ebadfd
  | 78 => eremchg
  | 79 => elibacc
  | 80 => elibbad
  | 81 => elibscn
  | 82 => elibmax
  | 83 => elibexec
  | 84 => eilseq
  | 85 => erestart
  | 86 => estrpipe
  | 87 => eusers
  | 88 => enotsock
  | 89 => edestaddrreq
  | 90 => emsgsize
  | 91 => eprototype
  | 92 => enoprotoopt
  | 93 => eprotonosupport
  | 94 => esocktnosupport
  | 95 => eopnotsupp
  | 96 => epfnosupport
  | 97 => eafnosupport
  | 98 => eaddrinuse
  | 99 => eaddrnotavail
  | 100 => enetdown
  | 101 => enetunreach
  | 102 => enetreset
  | 103 => econnaborted
  | 104 => econnreset
  | 105 => enobufs
  | 106 => eisconn
  | 107 => enotconn
  | 108 => eshutdown
  | 109 => etoomanyrefs
  | 110 => etimedout
  | 111 => econnrefused
  | 112 => ehostdown
  | 113 => ehostunreach
  | 114 => ealready
  | 115 => einprogress
  | 116 => estale
  | 117 => euclean
  | 118 => enotnam
  | 119 => enavail
  | 120 => eisnam
  | 121 => eremoteio
  | 122 => edquot
  | 123 => enomedium
  | 124 => emediumtype
  | 125 => ecanceled
  | 126 => enokey
  | 127 => ekeyexpired
  | 128 => ekeyrevoked
  | 129 => ekeyrejected
  | 130 => eownerdead
  | 131 => enotrecoverable
  | 132 => erfkill
  | 133 => ehwpoison
  | _ => unknown

def name : Errno → Text
  | unknown => "UnknownErrno".toList
  | eperm => "EPERM".toList
  | enoent => "ENOENT".toList
  | esrch => "ESRCH".toList
  | eintr => "EINTR".toList
  | eio => "EIO".toList
  | enxio => "ENXIO".toList
  | e2big => "E2BIG".toList
  | enoexec => "ENOEXEC".toList
  | ebadf => "EBADF".toList
  | echild => "ECHILD".toList
  | eagain => "EAGAIN".toList
  | enomem => "ENOMEM".toList
  | eacces => "EACCES".toList
  | efault => "EFAULT".toList
  | enotblk => "ENOTBLK".toList
  | ebusy => "EBUSY".toList
  | eexist => "EEXIST".toList
  | exdev => "EXDEV".toList
  | enodev => "ENODEV".toList
  | enotdir => "ENOTDIR".toList
  | eisdir => "EISDIR".toList
  | einval => "EINVAL".toList
  | enfile => "ENFILE".toList
  | emfile => "EMFILE".toList
  | enotty => "ENOTTY".toList
  | etxtbsy => "ETXTBSY".toList
  | efbig => "EFBIG".toList
  | enospc => "ENOSPC".toList
  | espipe => "ESPIPE".toList
  | erofs => "EROFS".toList
  | emlink => "EMLINK".toList
  | epipe => "EPIPE".toList
  | edom => "EDOM".toList
  | erange => "ERANGE".toList
  | edeadlk => "EDEADLK".toList
  | enametoolong => "ENAMETOOLONG".toList
  | enolck => "ENOLCK".toList
  | enosys => "ENOSYS".toList
  | enotempty => "ENOTEMPTY".toList
  | eloop => "ELOOP".toList
  | enomsg => "ENOMSG".toList
  | eidrm => "EIDRM".toList
  | echrng => "ECHRNG".toList
  | el2nsync => "EL2NSYNC".toList
  | el3hlt => "EL3HLT".toList
  | el3rst => "EL3RST".toList
  | elnrng => "ELNRNG".toList
  | eunatch => "EUNATCH".toList
  | enocsi => "ENOCSI".toList
  | el2hlt => "EL2HLT".toList
  | ebade => "EBADE".toList
  | ebadr => "EBADR".toList
  | exfull => "EXFULL".toList
  | enoano => "ENOANO".toList
  | ebadrqc => "EBADRQC".toList
  | ebadslt => "EBADSLT".toList
  | ebfont => "EBFONT".toList
  | enostr => "ENOSTR".toList
  | enodata => "ENODATA".toList
  | etime => "ETIME".toList
  | enosr => "ENOSR".toList
  | enonet => "ENONET".toList
  | enopkg => "ENOPKG".toList
  | eremote => "EREMOTE".toList
  | enolink => "ENOLINK".toList
  | eadv => "EADV".toList
  | esrmnt => "ESRMNT".toList
  | ecomm => "ECOMM".toList
  | eproto => "EPROTO".toList
  | emultihop => "EMULTIHOP".toList
  | edotdot => "EDOTDOT".toList
  | ebadmsg => "EBADMSG".toList
  | eoverflow => "EOVERFLOW".toList
  | enotuniq => "ENOTUNIQ".toList
  | ebadfd => "EBADFD".toList
  | eremchg => "EREMCHG".toList
  | elibacc => "ELIBACC".toList
  | elibbad => "ELIBBAD".toList
  | elibscn => "ELIBSCN".toList
  | elibmax => "ELIBMAX".toList
  | elibexec => "ELIBEXEC".toList
  | eilseq => "EILSEQ".toList
  | erestart => "ERESTART".toList
  | estrpipe => "ESTRPIPE".toList
  | eusers => "EUSERS".toList
  | enotsock => "ENOTSOCK".toList
  | edestaddrreq => "EDESTADDRREQ".toList
  | emsgsize => "EMSGSIZE".toList
  | eprototype => "EPROTOTYPE".toList
  | enoprotoopt => "ENOPROTOOPT".toList
  | eprotonosupport => "EPROTONOSUPPORT".toList
  | esocktnosupport => "ESOCKTNOSUPPORT".toList
  | eopnotsupp => "EOPNOTSUPP".toList
  | epfnosupport => "EPFNOSUPPORT".toList
  | eafnosupport => "EAFNOSUPPORT".toList
  | eaddrinuse => "EADDRINUSE".toList
  | eaddrnotavail => "EADDRNOTAVAIL".toList
  | enetdown => "ENETDOWN".toList
  | enetunreach => "ENETUNREACH".toList
  | enetreset => "ENETRESET".toList
  | econnaborted => "ECONNABORTED".toList
  | econnreset => "ECONNRESET".toList
  | enobufs => "ENOBUFS".toList
  | eisconn => "EISCONN".toList
  | enotconn => "ENOTCONN".toList
  | eshutdown => "ESHUTDOWN".toList
  | etoomanyrefs => "ETOOMANYREFS".toList
  | etimedout => "ETIMEDOUT".toList
  | econnrefused => "ECONNREFUSED".toList
  | ehostdown => "EHOSTDOWN".toList
  | ehostunreach => "EHOSTUNREACH".toList
  | ealready => "EALREADY".toList
  | einprogress => "EINPROGRESS".toList
  | estale => "ESTALE".toList
  | euclean => "EUCLEAN".toList
  | enotnam => "ENOTNAM".toList
  | enavail => "ENAVAIL".toList
  | eisnam => "EISNAM".toList
  | eremoteio => "EREMOTEIO".toList
  | edquot => "EDQUOT".toList
  | enomedium => "ENOMEDIUM".toList
  | emediumtype => "EMEDIUMTYPE".toList
  | ecanceled => "ECANCELED".toList
  | enokey => "ENOKEY".toList
  | ekeyexpired => "EKEYEXPIRED".toList
  | ekeyrevoked => "EKEYREVOKED".toList
  | ekeyrejected => "EKEYREJECTED".toList
  | eownerdead => "EOWNERDEAD".toList
  | enotrecoverable => "ENOTRECOVERABLE".toList
  | erfkill => "ERFKILL".toList
  | ehwpoison => "EHWPOISON".toList

def description : Errno → Text
  | unknown => "Unknown errno".toList
  | eperm => "Operation not permitted".toList
  | enoent => "No such file or directory".toList
  | esrch => "No such process".toList
  | eintr => "Interrupted system call".toList
  | eio => "I/O error".toList
  | enxio => "No such device or address".toList
  | e2big => "Argument list too long".toList
  | enoexec => "Exec format error".toList
  | ebadf => "Bad file number".toList
  | echild => "No child processes".toList
  | eagain => "Try again".toList
  | enomem => "Out of memory".toList
  | eacces => "Permission denied".toList
  | efault => "Bad address".toList
  | enotblk => "Block device required".toList
  | ebusy => "Device or resource busy".toList
  | eexist => "File exists".toList
  | exdev => "Cross-device link".toList
  | enodev => "No such device".toList
  | enotdir => "Not a directory".toList
  | eisdir => "Is a directory".toList
  | einval => "Invalid argument".toList
  | enfile => "File table overflow".toList
  | emfile => "Too many open files".toList
  | enotty => "Not a typewriter".toList
  | etxtbsy => "Text file busy".toList
  | efbig => "File too large".toList
  | enospc => "No space left on device".toList
  | espipe => "Illegal seek".toList
  | erofs => "Read-only file system".toList
  | emlink => "Too many links".toList
  | epipe => "Broken pipe".toList
  | edom => "Math argument out of domain of func".toList
  | erange => "Math result not representable".toList
  | edeadlk => "Resource deadlock would occur".toList
  | enametoolong => "File name too long".toList
  | enolck => "No record locks available".toList
  | enosys => "Function not implemented".toList
  | enotempty => "Directory not empty".toList
  | eloop => "Too many symbolic links encountered".toList
  | enomsg => "No message of desired type".toList
  | eidrm => "Identifier removed".toList
  | echrng => "Channel number out of range".toList
  | el2nsync => "Level 2 not synchronized".toList
  | el3hlt => "Level 3 halted".toList
  | el3rst => "Level 3 reset".toList
  | elnrng => "Link number out of range".toList
  | eunatch => "Protocol driver not attached".toList
  | enocsi => "No CSI structure available".toList
  | el2hlt => "Level 2 halted".toList
  | ebade => "Invalid exchange".toList
  | ebadr => "Invalid request descriptor".toList
  | exfull => "Exchange full".toList
  | enoano => "No anode".toList
  | ebadrqc => "Invalid request code".toList
  | ebadslt => "Invalid slot".toList
  | ebfont => "Bad font file format".toList
  | enostr => "Device not a stream".toList
  | enodata => "No data available".toList
  | etime => "Timer expired".toList
  | enosr => "Out of streams resources".toList
  | enonet => "Machine is not on the network".toList
  | enopkg => "Package not installed".toList
  | eremote => "Object is remote".toList
  | enolink => "Link has been severed".toList
  | eadv => "Advertise error".toList
  | esrmnt => "Srmount error".toList
  | ecomm => "Communication error on send".toList
  | eproto => "Protocol error".toList
  | emultihop => "Multihop attempted".toList
  | edotdot => "RFS specific error".toList
  | ebadmsg => "Not a data message".toList
  | eoverflow => "Value too large for defined data type".toList
  | enotuniq => "Name not unique on network".toList
  | ebadfd => "File descriptor in bad state".toList
  | eremchg => "Remote address changed".toList
  | elibacc => "Can not access a needed shared library".toList
  | elibbad => "Accessing a corrupted shared library".toList
  | elibscn => ".lib section in a.out corrupted".toList
  | elibmax => "Attempting to link in too many shared libraries".toList
  | elibexec => "Cannot exec a shared library directly".toList
  | eilseq => "Illegal byte sequence".toList
  | erestart => "Interrupted system call should be restarted".toList
  | estrpipe => "Streams pipe error".toList
  | eusers => "Too many users".toList
  | enotsock => "Socket operation on non-socket".toList
  | edestaddrreq => "Destination address required".toList
  | emsgsize => "Message too long".toList
  | eprototype => "Protocol wrong type for socket".toList
  | enoprotoopt => "Protocol not available".toList
  | eprotonosupport => "Protocol not supported".toList
  | esocktnosupport => "Socket type not supported".toList
  | eopnotsupp => "Operation not supported on transport endpoint".toList
  | epfnosupport => "Protocol family not supported".toList
  | eafnosupport => "Address family not supported by protocol".toList
  | eaddrinuse => "Address already in use".toList
  | eaddrnotavail => "Cannot assign requested address".toList
  | enetdown => "Network is down".toList
  | enetunreach => "Network is unreachable".toList
  | enetreset => "Network dropped connection because of reset".toList
  | econnaborted => "Software caused connection abort".toList
  | econnreset => "Connection reset by peer".toList
  | enobufs => "No buffer space available".toList
  | eisconn => "Transport endpoint is already connected".toList
  | enotconn => "Transport endpoint is not connected".toList
  | eshutdown => "Cannot send after transport endpoint shutdown".toList
  | etoomanyrefs => "Too many references: cannot splice".toList
  | etimedout => "Connection timed out".toList
  | econnrefused => "Connection refused".toList
  | ehostdown => "Host is down".toList
  | ehostunreach => "No route to host".toList
  | ealready => "Operation already in progress".toList
  | einprogress => "Operation now in progress".toList
  | estale => "Stale file handle".toList
  | euclean => "Structure needs cleaning".toList
  | enotnam => "Not a XENIX named type file".toList
  | enavail => "No XENIX semaphores available".toList
  | eisnam => "Is a named type file".toList
  | eremoteio => "Remote I/O error".toList
  | edquot => "Quota exceeded".toList
  | enomedium => "No medium found".toList
  | emediumtype => "Wrong medium type".toList
  | ecanceled => "Operation canceled".toList
  | enokey => "Required key not available".toList
  | ekeyexpired => "Key has expired".toList
  | ekeyrevoked => "Key has been revoked".toList
  | ekeyrejected => "Key was rejected by service".toList
  | eownerdead => "Owner died".toList
  | enotrecoverable => "State not recoverable".toList
  | erfkill => "Operation not possible due to RF-kill".toList
  | ehwpoison => "Memory page has hardware error".toList

/-- The wording of the C library, where it is another one. -/
def libraryText : Errno → Text
  | eio => "Input/output error".toList
  | ebadf => "Bad file descriptor".toList
  | eagain => "Resource temporarily unavailable".toList
  | enomem => "Cannot allocate memory".toList
  | exdev => "Invalid cross-device link".toList
  | enfile => "Too many open files in system".toList
  | enotty => "Inappropriate ioctl for device".toList
  | edom => "Numerical argument out of domain".toList
  | erange => "Numerical result out of range".toList
  | edeadlk => "Resource deadlock avoided".toList
  | enolck => "No locks available".toList
  | eloop => "Too many levels of symbolic links".toList
  | ebadmsg => "Bad message".toList
  | eilseq => "Invalid or incomplete multibyte or wide character".toList
  | eopnotsupp => "Operation not supported".toList
  | enetreset => "Network dropped connection on reset".toList
  | edquot => "Disk quota exceeded".toList
  | e => e.description

/-- Name and meaning, as in `ENOENT: No such file or directory`. -/
def message (e : Errno) : Text := e.name ++ ": ".toList ++ e.description

/-- The wording of the C library with the number, as in `No such file or directory (os error 2)`. -/
def libraryMessage (e : Errno) : Text :=
  e.libraryText ++ " (os error ".toList ++ Text.decimal e.number ++ ")".toList

theorem ofNumber_number (e : Errno) : ofNumber e.number = e := by
  cases e <;> rfl

theorem number_ofNumber {n : Nat} (h : ofNumber n ≠ unknown) : (ofNumber n).number = n := by
  unfold ofNumber at h ⊢
  split at h <;> first | rfl | exact absurd rfl h

end Errno
end BucketMount
